import FietsOfOv.Lib.Closure
import FietsOfOv.Lib.Csv
import FietsOfOv.Lib.Loop
import FietsOfOv.Lib.Text
import Mathlib.Data.Finset.Image
import Mathlib.Data.List.Infix

/-!
# Filtering a GTFS feed

`otp/scripts/filter_gtfs_gvb.py`: the rows of the matching agencies, of their routes, of
those routes' trips and so on are written to a new feed, and metro trips outside the rush
hours are marked as taking bikes.  A member of the feed is `none` where the archive has no
such member, or an empty one.
-/

namespace FietsOfOv.Gtfs

open Csv

/-- What `main` can raise. -/
inductive FilterError where
  /-- `sys.exit` -/
  | noAgencyMatched (wanted : String)
  | attributeError
  | keyError (column : String)
  | typeError
deriving DecidableEq

structure Feed where
  agency : Option File
  routes : Option File
  trips : Option File
  stopTimes : Option File
  stops : Option File
  calendar : Option File
  calendarDates : Option File
  shapes : Option File
  transfers : Option File
  frequencies : Option File
  feedInfo : Option File

/-- The feed that is written, and the number of patched trips that is printed. -/
structure Filtered where
  feed : Feed
  patched : Nat

/-- The order in which a set is iterated over. -/
structure SetOrder where
  list : Finset (Option String) → List (Option String)
  nodup : ∀ s, (list s).Nodup
  mem : ∀ s x, x ∈ list s ↔ x ∈ s

/-! ## Reading and writing members -/

structure Table where
  fields : Option (List String)
  rows : List Row

/-- `_read`. -/
def read : Option File → Table
  | none => ⟨none, []⟩
  | some file => ⟨some file.header, readRows file⟩

/-- `_write`; there are no columns to write for a member that is not there. -/
def write (fields : Option (List String)) (rows : List Row) : Except FilterError (Option File) :=
  match fields with
  | some header => .ok (some ⟨header, rows.map (writeRow header)⟩)
  | none => .error .typeError

/-- `if f: _write(…)`. -/
def writeIf (fields : Option (List String)) (rows : List Row) : Option File :=
  match fields with
  | some (column :: header) => some ⟨column :: header, rows.map (writeRow (column :: header))⟩
  | _ => none

/-- A value that Python takes for true. -/
def truthy (value : Option String) : Bool := value ≠ none ∧ value ≠ some ""

/-- The values of `r[column]`. -/
def idsOf (column : String) (rows : List Row) : Except FilterError (List (Option String)) :=
  rows.mapM fun r =>
    match r column with
    | some value => .ok value
    | none => .error (.keyError column)

/-! ## The off-peak repair -/

/-- `RUSH_WINDOWS`. -/
def rushWindows : List (Int × Int) :=
  [(7 * 3600, 9 * 3600), (16 * 3600, 18 * 3600 + 30 * 60)]

/-- `METRO_ROUTE_TYPE`. -/
def metroRouteType : String := "1"

/-- `_secs`. -/
def secs : Option String → Option Int
  | none => none
  | some hhmmss =>
      if hhmmss = "" then none
      else
        match Text.split ':' hhmmss.toList with
        | [h, m, s] => do
            let h ← Text.int h
            let m ← Text.int m
            let s ← Text.int s
            return h * 3600 + m * 60 + s
        | _ => none

abbrev Spans := Option String → Option (Int × Int)

/-- The span of a trip with one more time. -/
def extendSpan (tripId : Option String) (spans : Spans) (s : Int) : Spans :=
  Function.update spans tripId
    (match spans tripId with
      | some (lo, hi) => some (min lo s, max hi s)
      | none => some (s, s))

/-- The times of a stop_times row that can be read. -/
def timesOf (r : Row) : List Int :=
  ["arrival_time", "departure_time"].filterMap fun key => secs (r.get key)

/-- The spans with the times of one more kept stop_times row. -/
def collectSpan (candidates : List (Option String)) (spans : Spans) (r : Row) : Spans :=
  if r.get "trip_id" ∈ candidates then (timesOf r).foldl (extendSpan (r.get "trip_id")) spans
  else spans

/-- `spans`, the first and last times of the candidates. -/
def spansOf (candidates : List (Option String)) (stopTimes : List Row) : Spans :=
  stopTimes.foldl (collectSpan candidates) fun _ => none

def offPeak (span : Int × Int) : Bool :=
  ¬ rushWindows.any fun window => span.1 < window.2 ∧ span.2 > window.1

/-- The loop over the trips patches this row. -/
def isPatched (spans : Spans) (candidates : List (Option String)) (r : Row) : Bool :=
  match spans (r.get "trip_id") with
  | some span => r.get "trip_id" ∈ candidates ∧ offPeak span
  | none => false

def patch (spans : Spans) (candidates : List (Option String)) (r : Row) : Row :=
  if isPatched spans candidates r then r.set "bikes_allowed" "1" else r

def tripFields (fields : Option (List String)) (patched : Nat) : Option (List String) :=
  if patched ≠ 0 ∧ "bikes_allowed" ∉ fields.getD [] then
    some (fields.getD [] ++ ["bikes_allowed"])
  else fields

/-! ## Stops and their stations -/

/-- `all_stops`: of two rows with one id the last counts. -/
def allStops (rows : List Row) (id : Option String) : Option Row :=
  rows.reverse.find? fun r => r.get "stop_id" = id

/-- The station a stop names, as a set of at most one. -/
def parents (stops : Option String → Option Row) (id : Option String) : Finset (Option String) :=
  match stops id with
  | some r => if truthy (r.get "parent_station") then {r.get "parent_station"} else ∅
  | none => ∅

/-- `keep`; a row can name one more station at most, so the search has ended by then. -/
def keptStops (rows : List Row) (stopIds : Finset (Option String)) : Finset (Option String) :=
  (Closure.search (parents (allStops rows)) (rows.length + 1) stopIds).keep

/-! ## The script -/

section Script

-- `str.lower`
variable (lower : String → String)

/-- `r.get(column, "").lower()`. -/
def lowered (r : Row) (column : String) : Except FilterError String :=
  match r column with
  | none => .ok (lower "")
  | some (some value) => .ok (lower value)
  | some none => .error .attributeError

/-- The condition on an agency. -/
def agencyMatches (wanted : String) (r : Row) : Except FilterError Bool := do
  if (← lowered lower r "agency_id") = wanted then return true
  else return decide (wanted.toList <:+: (← lowered lower r "agency_name").toList)

def matchingAgencies (wanted : String) : List Row → Except FilterError (List Row)
  | [] => .ok []
  | r :: rows => do
      if ← agencyMatches lower wanted r then return r :: (← matchingAgencies wanted rows)
      else matchingAgencies wanted rows

/-- The rows whose value in a column is one of these. -/
def having (column : String) (ids : List (Option String)) (rows : List Row) : List Row :=
  rows.filter fun r => r.get column ∈ ids

/-- The rows and ids of the first three steps of `main`. -/
structure Selection where
  agencies : List Row
  routes : List Row
  trips : List Row
  tripIds : List (Option String)
  serviceIds : List (Option String)
  shapeIds : List (Option String)
  bikeCandidates : List (Option String)

/-- `main`, from the agencies to the trips. -/
def select (wanted : String) (feed : Feed) : Except FilterError Selection := do
  let agencies ← matchingAgencies lower wanted (read feed.agency).rows
  let agencyIds ← idsOf "agency_id" agencies
  if agencyIds = [] then throw (.noAgencyMatched wanted)
  let routes := having "agency_id" agencyIds (read feed.routes).rows
  let routeIds ← idsOf "route_id" routes
  let metroRouteIds ← idsOf "route_id" (having "route_type" [some metroRouteType] routes)
  let trips := having "route_id" routeIds (read feed.trips).rows
  let tripIds ← idsOf "trip_id" trips
  let serviceIds := (trips.map (·.get "service_id")).filter truthy
  let shapeIds := (trips.map (·.get "shape_id")).filter truthy
  let bikeCandidates ← idsOf "trip_id"
    ((having "route_id" metroRouteIds trips).filter fun r => r.get "bikes_allowed" ≠ some "1")
  return { agencies, routes, trips, tripIds, serviceIds, shapeIds, bikeCandidates }

/-- `main`, with the members it writes. -/
def writeFeed (order : SetOrder) (feed : Feed) (s : Selection) : Except FilterError Filtered := do
  let agency ← write (read feed.agency).fields s.agencies
  let routes ← write (read feed.routes).fields s.routes
  let keptTimes := having "trip_id" s.tripIds (read feed.stopTimes).rows
  let stopTimes ← write (read feed.stopTimes).fields keptTimes
  let spans := spansOf s.bikeCandidates keptTimes
  let patched := s.trips.countP (isPatched spans s.bikeCandidates)
  let trips ← write (tripFields (read feed.trips).fields patched)
    (s.trips.map (patch spans s.bikeCandidates))
  let stopRows := (read feed.stops).rows
  let _ ← idsOf "stop_id" stopRows
  let keep := keptStops stopRows (keptTimes.map (·.get "stop_id")).toFinset
  let stops ← write (read feed.stops).fields ((order.list keep).filterMap (allStops stopRows))
  let keeps (r : Row) (column : String) : Bool := r.get column ∈ keep
  return {
    feed := {
      agency, routes, trips, stopTimes, stops,
      calendar := writeIf (read feed.calendar).fields
        (having "service_id" s.serviceIds (read feed.calendar).rows),
      calendarDates := writeIf (read feed.calendarDates).fields
        (having "service_id" s.serviceIds (read feed.calendarDates).rows),
      shapes := writeIf (read feed.shapes).fields
        (having "shape_id" s.shapeIds (read feed.shapes).rows),
      transfers := writeIf (read feed.transfers).fields
        ((read feed.transfers).rows.filter fun r =>
          keeps r "from_stop_id" && keeps r "to_stop_id"),
      frequencies := writeIf (read feed.frequencies).fields
        (having "trip_id" s.tripIds (read feed.frequencies).rows),
      feedInfo := writeIf (read feed.feedInfo).fields (read feed.feedInfo).rows },
    patched }

/-- `main`; the match string is an argument, "GVB" if it is not given. -/
def main (order : SetOrder) (agencyMatch : String) (feed : Feed) : Except FilterError Filtered := do
  writeFeed order feed (← select lower (lower agencyMatch) feed)

end Script

/-! ## Where nothing is raised -/

section Spec

variable {lower : String → String} {wanted column : String} {feed : Feed} {order : SetOrder}
  {rows : List Row} {r : Row} {ids : List (Option String)} {fields : Option (List String)}

theorem mem_having : r ∈ having column ids rows ↔ r ∈ rows ∧ r.get column ∈ ids := by
  simp [having]

theorem idsOf_eq_ok :
    idsOf column rows = .ok ids ↔
      (∀ r ∈ rows, r column ≠ none) ∧ ids = rows.map (·.get column) := by
  rw [idsOf, Loop.mapM_eq_ok]
  have hrow : ∀ r : Row, ∀ id, (match r column with
      | some value => (.ok value : Except FilterError (Option String))
      | none => .error (.keyError column)) = .ok id ↔ r column ≠ none ∧ r.get column = id := by
    intro r id
    cases hr : r column <;> simp [Row.get, hr]
  simp only [hrow, List.forall₂_and_left,
    ← List.forall₂_map_left_iff (f := fun r : Row => r.get column)]
  rw [List.forall₂_eq_eq_eq, eq_comm]

/-- The agency matches, as far as the condition can be evaluated. -/
def isMatch (lower : String → String) (wanted : String) (r : Row) : Bool :=
  match agencyMatches lower wanted r with
  | .ok answer => answer
  | .error _ => false

theorem matchingAgencies_eq_ok {agencies : List Row} :
    matchingAgencies lower wanted rows = .ok agencies ↔
      (∀ r ∈ rows, ∃ answer, agencyMatches lower wanted r = .ok answer) ∧
        agencies = rows.filter (isMatch lower wanted) := by
  induction rows generalizing agencies with
  | nil => simp [matchingAgencies, eq_comm]
  | cons r rows ih =>
      rw [matchingAgencies, Loop.bind_eq_ok]
      cases hr : agencyMatches lower wanted r with
      | error e => simp [hr]
      | ok answer =>
          have hmatch : isMatch lower wanted r = answer := by rw [isMatch, hr]
          cases answer with
          | false => simp [hr, hmatch, ih]
          | true =>
              simp only [Except.ok.injEq, exists_eq_left', if_true, Loop.bind_eq_ok, ih,
                List.mem_cons, forall_eq_or_imp, hr, exists_eq', true_and, pure, Except.pure,
                List.filter_cons, hmatch]
              constructor
              · rintro ⟨rest, ⟨hall, rfl⟩, rfl⟩
                exact ⟨hall, rfl⟩
              · rintro ⟨hall, rfl⟩
                exact ⟨_, ⟨hall, rfl⟩, rfl⟩

/-- What is selected, and what makes sure that selecting it raises nothing. -/
structure Selects (lower : String → String) (wanted : String) (feed : Feed) (s : Selection) :
    Prop where
  matched : ∀ r ∈ (read feed.agency).rows, ∃ answer, agencyMatches lower wanted r = .ok answer
  agencies : s.agencies = (read feed.agency).rows.filter (isMatch lower wanted)
  agencyColumn : ∀ r ∈ s.agencies, r "agency_id" ≠ none
  found : s.agencies ≠ []
  routes : s.routes =
    having "agency_id" (s.agencies.map (·.get "agency_id")) (read feed.routes).rows
  routeColumn : ∀ r ∈ s.routes, r "route_id" ≠ none
  trips : s.trips = having "route_id" (s.routes.map (·.get "route_id")) (read feed.trips).rows
  tripColumn : ∀ r ∈ s.trips, r "trip_id" ≠ none
  tripIds : s.tripIds = s.trips.map (·.get "trip_id")
  serviceIds : s.serviceIds = (s.trips.map (·.get "service_id")).filter truthy
  shapeIds : s.shapeIds = (s.trips.map (·.get "shape_id")).filter truthy
  bikeCandidates : s.bikeCandidates =
    ((having "route_id"
      ((having "route_type" [some metroRouteType] s.routes).map (·.get "route_id"))
      s.trips).filter fun r => r.get "bikes_allowed" ≠ some "1").map (·.get "trip_id")

theorem select_eq_ok {s : Selection} :
    select lower wanted feed = .ok s ↔ Selects lower wanted feed s := by
  unfold select
  simp only [Loop.bind_eq_ok, matchingAgencies_eq_ok, idsOf_eq_ok]
  constructor
  · rintro ⟨agencies, ⟨hmatched, hagencies⟩, agencyIds, ⟨hagencyColumn, rfl⟩, h⟩
    split at h
    · simp [throw, throwThe, MonadExceptOf.throw, bind, Except.bind] at h
    · rename_i hfound
      simp only [Loop.bind_eq_ok, idsOf_eq_ok, pure, Except.pure, Except.ok.injEq] at h
      obtain ⟨routeIds, ⟨hrouteColumn, rfl⟩, metroIds, ⟨-, rfl⟩, tripIds, ⟨htripColumn, rfl⟩,
        candidates, ⟨-, rfl⟩, rfl⟩ := h
      exact {
        matched := hmatched, agencies := hagencies, agencyColumn := hagencyColumn,
        found := by simpa using hfound, routes := rfl, routeColumn := hrouteColumn, trips := rfl,
        tripColumn := htripColumn, tripIds := rfl, serviceIds := rfl, shapeIds := rfl,
        bikeCandidates := rfl }
  · intro h
    obtain ⟨agencies, routes, trips, tripIds, serviceIds, shapeIds, candidates⟩ := s
    obtain ⟨hmatched, hagencies, hagencyColumn, hfound, hroutes, hrouteColumn, htrips, htripColumn,
      htripIds, hserviceIds, hshapeIds, hcandidates⟩ := h
    simp only at hagencies hagencyColumn hfound hroutes hrouteColumn htrips htripColumn
    simp only at htripIds hserviceIds hshapeIds hcandidates
    subst hcandidates hshapeIds hserviceIds htripIds htrips hroutes
    refine ⟨agencies, ⟨hmatched, hagencies⟩, _, ⟨hagencyColumn, rfl⟩, ?_⟩
    rw [if_neg (by simpa using hfound)]
    simp only [Loop.bind_eq_ok, idsOf_eq_ok, pure, Except.pure, Except.ok.injEq]
    refine ⟨_, ⟨hrouteColumn, rfl⟩, _, ⟨?_, rfl⟩, _, ⟨htripColumn, rfl⟩, _, ⟨?_, rfl⟩, rfl⟩
    · exact fun r hr => hrouteColumn r (mem_having.mp hr).1
    · exact fun r hr => htripColumn r (mem_having.mp (List.mem_of_mem_filter hr)).1

/-! ### The members that are written -/

theorem write_eq_ok {member : Option File} :
    write fields rows = .ok member ↔
      ∃ header, fields = some header ∧ member = some ⟨header, rows.map (writeRow header)⟩ := by
  cases fields <;> simp [write, eq_comm]

/-- A member is read back under the header it was written with, so there was one. -/
theorem fields_of_write {member : Option File} (h : write fields rows = .ok member) :
    (read member).fields = fields ∧ fields ≠ none := by
  obtain ⟨header, rfl, rfl⟩ := write_eq_ok.mp h
  exact ⟨rfl, Option.some_ne_none header⟩

theorem exists_write (rows : List Row) (h : fields ≠ none) :
    ∃ member, write fields rows = .ok member := by
  obtain ⟨header, rfl⟩ := Option.ne_none_iff_exists'.mp h
  exact ⟨_, write_eq_ok.mpr ⟨header, rfl, rfl⟩⟩

/-- The stop_times rows of the selected trips. -/
def Selection.stopTimes (s : Selection) (feed : Feed) : List Row :=
  having "trip_id" s.tripIds (read feed.stopTimes).rows

def Selection.spans (s : Selection) (feed : Feed) : Spans :=
  spansOf s.bikeCandidates (s.stopTimes feed)

/-- The stops of those rows, with their stations. -/
def Selection.keep (s : Selection) (feed : Feed) : Finset (Option String) :=
  keptStops (read feed.stops).rows ((s.stopTimes feed).map (·.get "stop_id")).toFinset

/-- What is written, and what makes sure that writing it raises nothing. -/
structure Writes (order : SetOrder) (feed : Feed) (s : Selection) (out : Filtered) : Prop where
  patched : out.patched = s.trips.countP (isPatched (s.spans feed) s.bikeCandidates)
  agency : write (read feed.agency).fields s.agencies = .ok out.feed.agency
  routes : write (read feed.routes).fields s.routes = .ok out.feed.routes
  stopTimes : write (read feed.stopTimes).fields (s.stopTimes feed) = .ok out.feed.stopTimes
  trips : write (tripFields (read feed.trips).fields out.patched)
    (s.trips.map (patch (s.spans feed) s.bikeCandidates)) = .ok out.feed.trips
  stopColumn : ∀ r ∈ (read feed.stops).rows, r "stop_id" ≠ none
  stops : write (read feed.stops).fields
    ((order.list (s.keep feed)).filterMap (allStops (read feed.stops).rows)) = .ok out.feed.stops
  calendar : out.feed.calendar = writeIf (read feed.calendar).fields
    (having "service_id" s.serviceIds (read feed.calendar).rows)
  calendarDates : out.feed.calendarDates = writeIf (read feed.calendarDates).fields
    (having "service_id" s.serviceIds (read feed.calendarDates).rows)
  shapes : out.feed.shapes = writeIf (read feed.shapes).fields
    (having "shape_id" s.shapeIds (read feed.shapes).rows)
  transfers : out.feed.transfers = writeIf (read feed.transfers).fields
    ((read feed.transfers).rows.filter fun r =>
      r.get "from_stop_id" ∈ s.keep feed && r.get "to_stop_id" ∈ s.keep feed)
  frequencies : out.feed.frequencies = writeIf (read feed.frequencies).fields
    (having "trip_id" s.tripIds (read feed.frequencies).rows)
  feedInfo : out.feed.feedInfo = writeIf (read feed.feedInfo).fields (read feed.feedInfo).rows

theorem writeFeed_eq_ok {s : Selection} {out : Filtered} :
    writeFeed order feed s = .ok out ↔ Writes order feed s out := by
  unfold writeFeed
  simp only [Loop.bind_eq_ok, idsOf_eq_ok, pure, Except.pure, Except.ok.injEq]
  constructor
  · rintro ⟨agency, hagency, routes, hroutes, stopTimes, hstopTimes, trips, htrips, ids,
      ⟨hstopColumn, -⟩, stops, hstops, rfl⟩
    exact {
      patched := rfl, agency := hagency, routes := hroutes, stopTimes := hstopTimes,
      trips := htrips, stopColumn := hstopColumn, stops := hstops, calendar := rfl,
      calendarDates := rfl, shapes := rfl, transfers := rfl, frequencies := rfl, feedInfo := rfl }
  · intro h
    obtain ⟨⟨agency, routes, trips, stopTimes, stops, calendar, calendarDates, shapes, transfers,
      frequencies, feedInfo⟩, patched⟩ := out
    obtain ⟨hpatched, hagency, hroutes, hstopTimes, htrips, hstopColumn, hstops, hcalendar,
      hcalendarDates, hshapes, htransfers, hfrequencies, hfeedInfo⟩ := h
    simp only at hpatched hcalendar hcalendarDates hshapes htransfers hfrequencies hfeedInfo
    subst hpatched hcalendar hcalendarDates hshapes htransfers hfrequencies hfeedInfo
    exact ⟨agency, hagency, routes, hroutes, stopTimes, hstopTimes, trips, htrips, _,
      ⟨hstopColumn, rfl⟩, stops, hstops, rfl⟩

/-- **What `main` does**, where it raises nothing. -/
theorem main_eq_ok {agencyMatch : String} {out : Filtered} :
    main lower order agencyMatch feed = .ok out ↔
      ∃ s, Selects lower (lower agencyMatch) feed s ∧ Writes order feed s out := by
  simp only [main, Loop.bind_eq_ok, select_eq_ok, writeFeed_eq_ok]

/-! ### What is to be kept -/

section Kept

variable (lower : String → String) (wanted : String) (feed : Feed)

/-- The matching agencies. -/
def keptAgencies : List Row := (read feed.agency).rows.filter (isMatch lower wanted)

/-- Their routes. -/
def keptRoutes : List Row :=
  having "agency_id" ((keptAgencies lower wanted feed).map (·.get "agency_id"))
    (read feed.routes).rows

/-- Those routes' trips. -/
def keptTrips : List Row :=
  having "route_id" ((keptRoutes lower wanted feed).map (·.get "route_id")) (read feed.trips).rows

/-- Those trips' stop_times. -/
def keptStopTimes : List Row :=
  having "trip_id" ((keptTrips lower wanted feed).map (·.get "trip_id")) (read feed.stopTimes).rows

/-- What `main` asks of a feed. -/
structure Accepted : Prop where
  matched : ∀ r ∈ (read feed.agency).rows, ∃ answer, agencyMatches lower wanted r = .ok answer
  found : keptAgencies lower wanted feed ≠ []
  agencyColumn : ∀ r ∈ keptAgencies lower wanted feed, r "agency_id" ≠ none
  routeColumn : ∀ r ∈ keptRoutes lower wanted feed, r "route_id" ≠ none
  tripColumn : ∀ r ∈ keptTrips lower wanted feed, r "trip_id" ≠ none
  stopColumn : ∀ r ∈ (read feed.stops).rows, r "stop_id" ≠ none
  members : ∀ member ∈ [feed.routes, feed.trips, feed.stopTimes, feed.stops],
    (read member).fields ≠ none

/-- What `main` selects of such a feed. -/
def selected : Selection :=
  let routes := keptRoutes lower wanted feed
  let trips := keptTrips lower wanted feed
  { agencies := keptAgencies lower wanted feed, routes, trips,
    tripIds := trips.map (·.get "trip_id"),
    serviceIds := (trips.map (·.get "service_id")).filter truthy,
    shapeIds := (trips.map (·.get "shape_id")).filter truthy,
    bikeCandidates :=
      ((having "route_id"
        ((having "route_type" [some metroRouteType] routes).map (·.get "route_id"))
        trips).filter fun r => r.get "bikes_allowed" ≠ some "1").map (·.get "trip_id") }

end Kept

variable {s : Selection} {out : Filtered}

theorem Selects.agencies_eq (h : Selects lower wanted feed s) :
    s.agencies = keptAgencies lower wanted feed := h.agencies

theorem Selects.routes_eq (h : Selects lower wanted feed s) :
    s.routes = keptRoutes lower wanted feed := by
  rw [h.routes, h.agencies_eq, keptRoutes]

theorem Selects.trips_eq (h : Selects lower wanted feed s) :
    s.trips = keptTrips lower wanted feed := by
  rw [h.trips, h.routes_eq, keptTrips]

theorem Selects.stopTimes_eq (h : Selects lower wanted feed s) :
    s.stopTimes feed = keptStopTimes lower wanted feed := by
  rw [Selection.stopTimes, h.tripIds, h.trips_eq, keptStopTimes]

theorem Selects.mem_agencies (h : Selects lower wanted feed s) (hr : r ∈ s.agencies) :
    r ∈ (read feed.agency).rows := by
  rw [h.agencies] at hr
  exact List.mem_of_mem_filter hr

theorem Selects.mem_routes (h : Selects lower wanted feed s) (hr : r ∈ s.routes) :
    r ∈ (read feed.routes).rows := by
  rw [h.routes] at hr
  exact (mem_having.mp hr).1

theorem Selects.mem_trips (h : Selects lower wanted feed s) (hr : r ∈ s.trips) :
    r ∈ (read feed.trips).rows := by
  rw [h.trips] at hr
  exact (mem_having.mp hr).1

theorem rows_of_fields_none {member : Option File} (h : (read member).fields = none) :
    (read member).rows = [] := by
  cases member with
  | none => rfl
  | some file => cases h

theorem tripFields_ne_none (h : fields ≠ none) (patched : Nat) :
    tripFields fields patched ≠ none := by
  rw [tripFields]
  split
  · exact Option.some_ne_none _
  · exact h

/-- What is written was accepted. -/
theorem Accepted.of_writes (hs : Selects lower wanted feed s) (hw : Writes order feed s out) :
    Accepted lower wanted feed := by
  refine ⟨hs.matched, hs.agencies_eq ▸ hs.found, hs.agencies_eq ▸ hs.agencyColumn,
    hs.routes_eq ▸ hs.routeColumn, hs.trips_eq ▸ hs.tripColumn, hw.stopColumn, ?_⟩
  simp only [List.forall_mem_cons, List.not_mem_nil, false_implies, implies_true, and_true]
  refine ⟨(fields_of_write hw.routes).2, ?_, (fields_of_write hw.stopTimes).2,
    (fields_of_write hw.stops).2⟩
  intro hnone
  -- no member, no trips, so none was patched and there was no header to write
  have htrips : s.trips = [] := by
    rw [hs.trips, rows_of_fields_none hnone]
    rfl
  apply (fields_of_write hw.trips).2
  simp [hnone, tripFields, hw.patched, htrips]

theorem Accepted.selects (h : Accepted lower wanted feed) :
    Selects lower wanted feed (selected lower wanted feed) :=
  ⟨h.matched, rfl, h.agencyColumn, h.found, rfl, h.routeColumn, rfl, h.tripColumn, rfl, rfl, rfl,
    rfl⟩

theorem Accepted.agencyMember (h : Accepted lower wanted feed) :
    (read feed.agency).fields ≠ none := by
  intro hnone
  apply h.found
  rw [keptAgencies, rows_of_fields_none hnone]
  rfl

theorem Accepted.writes (h : Accepted lower wanted feed) :
    ∃ out, writeFeed order feed (selected lower wanted feed) = .ok out := by
  have hmembers := h.members
  simp only [List.forall_mem_cons, List.not_mem_nil, false_implies, implies_true,
    and_true] at hmembers
  obtain ⟨hroutes, htrips, hstopTimes, hstops⟩ := hmembers
  let s := selected lower wanted feed
  let patched := s.trips.countP (isPatched (s.spans feed) s.bikeCandidates)
  obtain ⟨agency, hagency⟩ := exists_write s.agencies h.agencyMember
  obtain ⟨routes, hroutes⟩ := exists_write s.routes hroutes
  obtain ⟨stopTimes, hstopTimes⟩ := exists_write (s.stopTimes feed) hstopTimes
  obtain ⟨trips, htrips⟩ := exists_write (s.trips.map (patch (s.spans feed) s.bikeCandidates))
    (tripFields_ne_none htrips patched)
  obtain ⟨stops, hstops⟩ := exists_write
    ((order.list (s.keep feed)).filterMap (allStops (read feed.stops).rows)) hstops
  simp only [writeFeed_eq_ok]
  exact ⟨⟨⟨agency, routes, trips, stopTimes, stops, writeIf _ _, writeIf _ _, writeIf _ _,
    writeIf _ _, writeIf _ _, writeIf _ _⟩, patched⟩, rfl, hagency, hroutes, hstopTimes, htrips,
    h.stopColumn, hstops, rfl, rfl, rfl, rfl, rfl, rfl⟩

/-- `main` writes a feed of every feed it accepts, and of no other. -/
theorem main_isOk_iff {agencyMatch : String} :
    (∃ out, main lower order agencyMatch feed = .ok out) ↔
      Accepted lower (lower agencyMatch) feed := by
  simp only [main_eq_ok]
  constructor
  · rintro ⟨out, s, hs, hw⟩
    exact Accepted.of_writes hs hw
  · intro h
    obtain ⟨out, hout⟩ := h.writes
    exact ⟨out, _, h.selects, writeFeed_eq_ok.mp hout⟩

/-! ### Single rows -/

/-- Only the one column is patched. -/
theorem patch_of_ne {spans : Spans} {candidates : List (Option String)}
    (hne : column ≠ "bikes_allowed") : patch spans candidates r column = r column := by
  rw [patch]
  split
  · rw [Row.set, Function.update_of_ne hne]
  · rfl

theorem tripFields_some (header : List String) (patched : Nat) :
    tripFields (some header) patched = some (header ++
      if patched ≠ 0 ∧ "bikes_allowed" ∉ header then ["bikes_allowed"] else []) := by
  simp only [tripFields, Option.getD_some]
  split <;> simp

theorem allStops_mem {id : Option String} (h : allStops rows id = some r) :
    r ∈ rows ∧ r.get "stop_id" = id := by
  constructor
  · exact List.mem_reverse.mp (List.mem_of_find?_eq_some h)
  · simpa using List.find?_some h

/-- Where ids are unique, an id finds its row. -/
theorem allStops_eq_some (hunique : (rows.map (·.get "stop_id")).Nodup) {id : Option String} :
    allStops rows id = some r ↔ r ∈ rows ∧ r.get "stop_id" = id := by
  refine ⟨allStops_mem, ?_⟩
  rintro ⟨hr, rfl⟩
  cases hfind : allStops rows (r.get "stop_id") with
  | none =>
      have hnone := List.find?_eq_none.mp hfind r (List.mem_reverse.mpr hr)
      simp at hnone
  | some found =>
      obtain ⟨hfound, hid⟩ := allStops_mem hfind
      rw [List.inj_on_of_nodup_map hunique hfound hr hid]

theorem mem_parents {stops : Option String → Option Row} {id station : Option String} :
    station ∈ parents stops id ↔
      ∃ r, stops id = some r ∧ truthy (r.get "parent_station") ∧
        station = r.get "parent_station" := by
  cases hstop : stops id with
  | none => simp [parents, hstop]
  | some r => by_cases htruthy : truthy (r.get "parent_station") <;> simp [parents, hstop, htruthy]

/-- The search for the stations has ended: there are no more stations than rows. -/
theorem keptStops_done (rows : List Row) (stopIds : Finset (Option String)) :
    (Closure.search (parents (allStops rows)) (rows.length + 1) stopIds).frontier = ∅ := by
  apply Closure.run_done (rows.map (·.get "parent_station")).toFinset
  · intro id station hstation
    obtain ⟨r, hr, -, rfl⟩ := mem_parents.mp hstation
    exact List.mem_toFinset.mpr (List.mem_map_of_mem (allStops_mem hr).1)
  · calc _ ≤ (rows.map (·.get "parent_station")).toFinset.card :=
          Finset.card_le_card Finset.sdiff_subset
      _ ≤ (rows.map (·.get "parent_station")).length := List.toFinset_card_le _
      _ < rows.length + 1 := by simp

theorem mem_keptStops {stopIds : Finset (Option String)} {id : Option String} :
    id ∈ keptStops rows stopIds ↔ Closure.Reaches (parents (allStops rows)) stopIds id :=
  Closure.mem_search_iff (keptStops_done rows stopIds)

end Spec

end FietsOfOv.Gtfs
