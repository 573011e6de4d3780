import FietsOfOv.Gtfs.Integrity

/-!
# Filtering a feed again

`main` on its own output, as when an already filtered feed is patched again.
-/

namespace FietsOfOv.Gtfs

open Csv
open Text (asciiLower)

def Feed.members (feed : Feed) : List (Option File) :=
  [feed.agency, feed.routes, feed.trips, feed.stopTimes, feed.stops, feed.calendar,
    feed.calendarDates, feed.shapes, feed.transfers, feed.frequencies, feed.feedInfo]

/-- Every row has a value, possibly empty, for every column of its header. -/
def Complete (feed : Feed) : Prop :=
  ∀ member ∈ feed.members, ∀ file, member = some file →
    ∀ line ∈ file.lines, line ≠ [] → file.header.length ≤ line.length

/-- The same header and, in some order, the same lines. -/
def SameMember (member member' : Option File) : Prop :=
  member = none ∧ member' = none ∨
    ∃ header lines lines', member = some ⟨header, lines⟩ ∧ member' = some ⟨header, lines'⟩ ∧
      lines.Perm lines'

variable {lower : String → String} {wanted column : String} {feed : Feed} {order : SetOrder}
  {rows : List Row} {r : Row} {ids candidates candidates' : List (Option String)}
  {fields : Option (List String)} {header : List String} {s : Selection} {out : Filtered}

/-! ## Reading back what was written -/

/-- The rows have a value in every field. -/
def FullUnder (fields : Option (List String)) (rows : List Row) : Prop :=
  ∀ r ∈ rows, ∃ header, fields = some header ∧ r.Full header

theorem fullUnder_read {member : Option File} (hfeed : Complete feed)
    (hmember : member ∈ feed.members) : FullUnder (read member).fields (read member).rows := by
  cases member with
  | none => simp [FullUnder, read]
  | some file =>
      intro r hr
      obtain ⟨cells, hcells, rfl⟩ := List.mem_map.mp hr
      obtain ⟨hline, hblank⟩ := List.mem_filter.mp hcells
      exact ⟨file.header, rfl,
        full_readRow (hfeed _ hmember file rfl cells hline (by simpa using hblank))⟩

theorem FullUnder.of_subset {rows' : List Row} (h : FullUnder fields rows)
    (hsub : ∀ r ∈ rows', r ∈ rows) : FullUnder fields rows' :=
  fun r hr => h r (hsub r hr)

theorem map_written (hfull : FullUnder (some header) rows) :
    rows.map (·.written header) = rows := by
  conv_rhs => rw [← List.map_id rows]
  refine List.map_congr_left fun r hr => ?_
  obtain ⟨header', hheader', hrow⟩ := hfull r hr
  obtain rfl := Option.some.inj hheader'
  exact hrow.written_eq

/-- Full rows are read back as they were, if a column of theirs is needed. -/
theorem read_write {member : Option File} (hwrite : write fields rows = .ok member)
    (hfull : FullUnder fields rows) (hcolumn : ∀ r ∈ rows, r column ≠ none) :
    read member = ⟨fields, rows⟩ := by
  obtain ⟨header, rfl, rfl⟩ := write_eq_ok.mp hwrite
  have hrows : (read (some ⟨header, rows.map (writeRow header)⟩)).rows = rows := by
    rw [rows_read_written]
    split
    · rename_i hheader
      rw [eq_comm, List.eq_nil_iff_forall_not_mem]
      intro r hr
      obtain ⟨header', hheader', hrow⟩ := hfull r hr
      obtain rfl := Option.some.inj hheader'
      have hnone := hrow column
      rw [hheader, if_neg (by simp)] at hnone
      exact hcolumn r hr hnone
    · exact map_written hfull
  exact congrArg (Table.mk (some header)) hrows

/-- What was kept of a member is kept of it again. -/
theorem writeIf_again {p : Row → Bool} (hfull : FullUnder fields rows) :
    writeIf (read (writeIf fields (rows.filter p))).fields
      ((read (writeIf fields (rows.filter p))).rows.filter p) = writeIf fields (rows.filter p) := by
  match fields with
  | none => rfl
  | some [] => rfl
  | some (first :: header) =>
      have hrows : (read (some ⟨first :: header,
          (rows.filter p).map (writeRow (first :: header))⟩)).rows = rows.filter p := by
        rw [rows_read_written, if_neg (List.cons_ne_nil _ _)]
        exact map_written (hfull.of_subset fun r hr => List.mem_of_mem_filter hr)
      simp only [writeIf, hrows, List.filter_filter, Bool.and_self]
      rfl

theorem having_having : having column ids (having column ids rows) = having column ids rows := by
  simp [having]

/-! ## The patch -/

theorem extendSpan_apply {tripId id : Option String} {spans spans' : Spans}
    (heq : spans id = spans' id) (time : Int) :
    extendSpan tripId spans time id = extendSpan tripId spans' time id := by
  by_cases hid : id = tripId
  · subst hid
    simp [extendSpan, heq]
  · simp [extendSpan, Function.update_of_ne hid, heq]

theorem extendSpans_apply {tripId id : Option String} {spans spans' : Spans}
    (heq : spans id = spans' id) (times : List Int) :
    times.foldl (extendSpan tripId) spans id = times.foldl (extendSpan tripId) spans' id := by
  induction times generalizing spans spans' with
  | nil => exact heq
  | cons time times ih => exact ih (extendSpan_apply heq time)

theorem extendSpans_of_ne {tripId id : Option String} {spans : Spans} (hne : id ≠ tripId)
    (times : List Int) : times.foldl (extendSpan tripId) spans id = spans id := by
  induction times generalizing spans with
  | nil => rfl
  | cons time times ih =>
      rw [List.foldl_cons, ih, extendSpan, Function.update_of_ne hne]

theorem collectSpan_apply {id : Option String} {spans spans' : Spans}
    (hid : id ∈ candidates ↔ id ∈ candidates') (heq : spans id = spans' id) (r : Row) :
    collectSpan candidates spans r id = collectSpan candidates' spans' r id := by
  by_cases htrip : id = r.get "trip_id"
  · subst htrip
    by_cases hcandidate : r.get "trip_id" ∈ candidates
    · rw [collectSpan, collectSpan, if_pos hcandidate, if_pos (hid.mp hcandidate)]
      exact extendSpans_apply heq _
    · rw [collectSpan, collectSpan, if_neg hcandidate, if_neg fun h => hcandidate (hid.mpr h), heq]
  · have hother : ∀ (candidates : List (Option String)) (spans : Spans),
        collectSpan candidates spans r id = spans id := by
      intro candidates spans
      rw [collectSpan]
      split
      · exact extendSpans_of_ne htrip _
      · rfl
    rw [hother, hother, heq]

/-- The span of a candidate does not depend on which other trips are candidates. -/
theorem spansOf_congr {id : Option String} (hid : id ∈ candidates ↔ id ∈ candidates') :
    spansOf candidates rows id = spansOf candidates' rows id := by
  have hfold : ∀ {spans spans' : Spans}, spans id = spans' id →
      rows.foldl (collectSpan candidates) spans id =
        rows.foldl (collectSpan candidates') spans' id := by
    induction rows with
    | nil => exact fun heq => heq
    | cons r rows ih => exact fun heq => ih (collectSpan_apply hid heq r)
  exact hfold rfl

/-! ## The second run -/

/-- A trips row as it is read back. -/
def readAgain (feed : Feed) (s : Selection) (header : List String) (r : Row) : Row :=
  (patch (s.spans feed) s.bikeCandidates r).written header

theorem fullUnder_agencies (hs : Selects lower wanted feed s) (hfeed : Complete feed) :
    FullUnder (read feed.agency).fields s.agencies :=
  (fullUnder_read hfeed (by simp [Feed.members])).of_subset fun _ hr => hs.mem_agencies hr

theorem fullUnder_trips (hs : Selects lower wanted feed s) (hfeed : Complete feed) :
    FullUnder (read feed.trips).fields s.trips :=
  (fullUnder_read hfeed (by simp [Feed.members])).of_subset fun _ hr => hs.mem_trips hr

theorem read_agency (hs : Selects lower wanted feed s) (hw : Writes order feed s out)
    (hfeed : Complete feed) : read out.feed.agency = ⟨(read feed.agency).fields, s.agencies⟩ :=
  read_write hw.agency (fullUnder_agencies hs hfeed) hs.agencyColumn

theorem read_routes (hs : Selects lower wanted feed s) (hw : Writes order feed s out)
    (hfeed : Complete feed) : read out.feed.routes = ⟨(read feed.routes).fields, s.routes⟩ :=
  read_write hw.routes
    ((fullUnder_read hfeed (by simp [Feed.members])).of_subset fun _ hr => hs.mem_routes hr)
    hs.routeColumn

theorem read_stopTimes (hs : Selects lower wanted feed s) (hw : Writes order feed s out)
    (hfeed : Complete feed) :
    read out.feed.stopTimes = ⟨(read feed.stopTimes).fields, s.stopTimes feed⟩ := by
  have hfull : FullUnder (read feed.stopTimes).fields (s.stopTimes feed) :=
    (fullUnder_read hfeed (by simp [Feed.members])).of_subset fun r hr => (mem_having.mp hr).1
  refine read_write hw.stopTimes hfull fun r hr (hnone : r "trip_id" = none) => ?_
  have hid : r.get "trip_id" ∈ s.tripIds := (mem_having.mp hr).2
  rw [hs.tripIds, Row.get, hnone] at hid
  obtain ⟨trip, htrip, hget⟩ := List.mem_map.mp hid
  -- the trip has an id, so the row has one
  obtain ⟨header, -, hrow⟩ := fullUnder_trips hs hfeed trip htrip
  have hvalue := hrow "trip_id"
  split at hvalue
  · obtain ⟨value, hvalue⟩ := hvalue
    simp [Row.get, hvalue] at hget
  · exact hs.tripColumn trip htrip hvalue

theorem read_stops (hw : Writes order feed s out) (hfeed : Complete feed) :
    read out.feed.stops = ⟨(read feed.stops).fields, stopRows order feed s⟩ := by
  have hsub : ∀ r ∈ stopRows order feed s, r ∈ (read feed.stops).rows := by
    intro r hr
    obtain ⟨id, -, hstop⟩ := List.mem_filterMap.mp hr
    exact (allStops_mem hstop).1
  exact read_write hw.stops ((fullUnder_read hfeed (by simp [Feed.members])).of_subset hsub)
    fun r hr => hw.stopColumn r (hsub r hr)

/-- A header with the column of the patch added has the other columns of the original. -/
theorem mem_tripFields {original : List String} {patched : Nat}
    (hheader : tripFields (some original) patched = some header) (hne : column ≠ "bikes_allowed") :
    column ∈ header ↔ column ∈ original := by
  rw [tripFields_some, Option.some.injEq] at hheader
  rw [← hheader, List.mem_append]
  constructor
  · intro h
    apply h.resolve_right
    split <;> simp [hne]
  · exact Or.inl

theorem readAgain_apply (hs : Selects lower wanted feed s) (hfeed : Complete feed) {patched : Nat}
    (hheader : tripFields (read feed.trips).fields patched = some header) (hr : r ∈ s.trips)
    (hne : column ≠ "bikes_allowed") : readAgain feed s header r column = r column := by
  obtain ⟨original, horiginal, hrow⟩ := fullUnder_trips hs hfeed r hr
  rw [horiginal] at hheader
  have hmem := mem_tripFields hheader hne
  have hvalue := hrow column
  rw [readAgain, written_apply, Row.get, patch_of_ne hne]
  by_cases hcolumn : column ∈ original
  · rw [if_pos hcolumn] at hvalue
    obtain ⟨value, hvalue⟩ := hvalue
    simp [hmem.mpr hcolumn, hvalue]
  · rw [if_neg hcolumn] at hvalue
    simp [hmem, hcolumn, hvalue]

/-- The trips that are read back are the patched ones, under a header they have. -/
theorem read_patched (hs : Selects lower wanted feed s) (hw : Writes order feed s out) :
    ∃ header, tripFields (read feed.trips).fields out.patched = some header ∧
      out.feed.trips =
        some ⟨header, (s.trips.map (readAgain feed s header)).map (writeRow header)⟩ ∧
      read out.feed.trips = ⟨some header, s.trips.map (readAgain feed s header)⟩ := by
  obtain ⟨header, hheader, htrips⟩ := write_eq_ok.mp hw.trips
  have hunder := under_patched hs hw header hheader
  refine ⟨header, hheader, ?_, ?_⟩
  · rw [htrips, List.map_map, List.map_map]
    simp only [Function.comp_def, readAgain, writeRow_written]
  · have hrows := @rows_read_written header
      (s.trips.map (patch (s.spans feed) s.bikeCandidates))
    have hagain : (if header = [] then []
          else (s.trips.map (patch (s.spans feed) s.bikeCandidates)).map (·.written header)) =
        s.trips.map (readAgain feed s header) := by
      split
      · rename_i hempty
        -- without columns there is no trip, for a trip has an id
        symm
        rw [List.map_eq_nil_iff, List.eq_nil_iff_forall_not_mem]
        intro r hr
        apply hs.tripColumn r hr
        have hnone := hunder _ (List.mem_map_of_mem hr) "trip_id" (by simp [hempty])
        rwa [patch_of_ne (by decide)] at hnone
      · rw [List.map_map]
        rfl
    rw [htrips]
    exact congrArg (Table.mk (some header)) (hrows.trans hagain)

/-- Of the trips, the patched rows are read back, with a cell for a column that was added. -/
theorem read_trips (hs : Selects lower wanted feed s) (hw : Writes order feed s out)
    (hfeed : Complete feed) : ∃ header,
      out.feed.trips =
        some ⟨header, (s.trips.map (readAgain feed s header)).map (writeRow header)⟩ ∧
      read out.feed.trips = ⟨some header, s.trips.map (readAgain feed s header)⟩ ∧
      ∀ r ∈ s.trips,
        (∀ column, column ≠ "bikes_allowed" → readAgain feed s header r column = r column) ∧
        ((readAgain feed s header r).get "bikes_allowed" = some "1" ↔
          (patch (s.spans feed) s.bikeCandidates r).get "bikes_allowed" = some "1") := by
  obtain ⟨header, hheader, htrips, hread⟩ := read_patched hs hw
  refine ⟨header, htrips, hread, fun r hr => ⟨?_, ?_⟩⟩
  · exact fun column hne => readAgain_apply hs hfeed hheader hr hne
  · exact get_written_eq_some
      (under_patched hs hw header hheader _ (List.mem_map_of_mem hr) "bikes_allowed") (by decide)

section Again

variable {s' : Selection} {out' : Filtered} {order' : SetOrder}

theorem keptAgencies_again (hs : Selects lower wanted feed s) (hw : Writes order feed s out)
    (hfeed : Complete feed) : keptAgencies lower wanted out.feed = s.agencies := by
  rw [keptAgencies, read_agency hs hw hfeed, hs.agencies, List.filter_filter]
  simp

theorem keptRoutes_again (hs : Selects lower wanted feed s) (hw : Writes order feed s out)
    (hfeed : Complete feed) : keptRoutes lower wanted out.feed = s.routes := by
  rw [keptRoutes, keptAgencies_again hs hw hfeed, read_routes hs hw hfeed, hs.routes,
    having_having]

/-- The second run accepts the feed, and keeps all of its trips. -/
theorem accepted_again (hs : Selects lower wanted feed s) (hw : Writes order feed s out)
    (hfeed : Complete feed) :
    Accepted lower wanted out.feed ∧
      keptTrips lower wanted out.feed = (read out.feed.trips).rows := by
  obtain ⟨header, htrips, hread, hsame⟩ := read_trips hs hw hfeed
  have hkept : keptTrips lower wanted out.feed = (read out.feed.trips).rows := by
    rw [keptTrips, keptRoutes_again hs hw hfeed, having, List.filter_eq_self, hread]
    intro r' hr'
    obtain ⟨r, hr, rfl⟩ := List.mem_map.mp hr'
    rw [decide_eq_true_eq, Row.get, (hsame r hr).1 "route_id" (by decide), ← Row.get]
    rw [hs.trips] at hr
    exact (mem_having.mp hr).2
  have hfields : ∀ {fields : Option (List String)} {rows : List Row} {member : Option File},
      write fields rows = .ok member → (read member).fields ≠ none := by
    intro fields rows member hwrite
    rw [(fields_of_write hwrite).1]
    exact (fields_of_write hwrite).2
  refine ⟨⟨?_, ?_, ?_, ?_, ?_, ?_, ?_⟩, hkept⟩
  · rw [read_agency hs hw hfeed]
    exact fun r hr => hs.matched r (hs.mem_agencies hr)
  · rw [keptAgencies_again hs hw hfeed]
    exact hs.found
  · rw [keptAgencies_again hs hw hfeed]
    exact hs.agencyColumn
  · rw [keptRoutes_again hs hw hfeed]
    exact hs.routeColumn
  · rw [hkept, hread]
    intro r' hr'
    obtain ⟨r, hr, rfl⟩ := List.mem_map.mp hr'
    rw [(hsame r hr).1 "trip_id" (by decide)]
    exact hs.tripColumn r hr
  · rw [read_stops hw hfeed]
    intro r hr
    obtain ⟨id, -, hstop⟩ := List.mem_filterMap.mp hr
    exact hw.stopColumn r (allStops_mem hstop).1
  · simp only [List.forall_mem_cons, List.not_mem_nil, false_implies, implies_true, and_true]
    exact ⟨hfields hw.routes, hfields hw.trips, hfields hw.stopTimes, hfields hw.stops⟩

theorem tripColumn_again (hs : Selects lower wanted feed s) (hw : Writes order feed s out)
    (hfeed : Complete feed) (hs' : Selects lower wanted out.feed s')
    (hcolumn : column ≠ "bikes_allowed") :
    s'.trips.map (·.get column) = s.trips.map (·.get column) := by
  obtain ⟨header, -, hread, hsame⟩ := read_trips hs hw hfeed
  rw [hs'.trips_eq, (accepted_again hs hw hfeed).2, hread, List.map_map]
  refine List.map_congr_left fun r hr => ?_
  rw [Function.comp_apply, Row.get, (hsame r hr).1 column hcolumn, Row.get]

theorem tripIds_again (hs : Selects lower wanted feed s) (hw : Writes order feed s out)
    (hfeed : Complete feed) (hs' : Selects lower wanted out.feed s') : s'.tripIds = s.tripIds := by
  rw [hs'.tripIds, tripColumn_again hs hw hfeed hs' (by decide), hs.tripIds]

theorem stopTimes_again (hs : Selects lower wanted feed s) (hw : Writes order feed s out)
    (hfeed : Complete feed) (hs' : Selects lower wanted out.feed s') :
    s'.stopTimes out.feed = s.stopTimes feed := by
  rw [Selection.stopTimes, tripIds_again hs hw hfeed hs', read_stopTimes hs hw hfeed,
    Selection.stopTimes, having_having]

/-- The stops that are written are found again by their ids. -/
theorem allStops_again {id : Option String} (hid : id ∈ s.keep feed) :
    allStops (stopRows order feed s) id = allStops (read feed.stops).rows id := by
  ext r
  rw [allStops_eq_some nodup_stopRows, stopRows, List.mem_filterMap]
  constructor
  · rintro ⟨⟨id', -, hstop⟩, rfl⟩
    rw [(allStops_mem hstop).2]
    exact hstop
  · intro hstop
    exact ⟨⟨id, (order.mem _ _).mpr hid, hstop⟩, (allStops_mem hstop).2⟩

theorem keep_again (hs : Selects lower wanted feed s) (hw : Writes order feed s out)
    (hfeed : Complete feed) (hs' : Selects lower wanted out.feed s') :
    s'.keep out.feed = s.keep feed := by
  ext id
  rw [Selection.keep, Selection.keep, mem_keptStops, mem_keptStops,
    stopTimes_again hs hw hfeed hs', read_stops hw hfeed]
  refine Closure.Reaches.congr fun id hreach => ?_
  rw [parents, parents, allStops_again (mem_keptStops.mpr hreach)]

/-- **The repair is done**: the trips that are still candidates are those whose spans touch
    the rush hours. -/
theorem unpatched_again (hs : Selects lower wanted feed s) (hw : Writes order feed s out)
    (hfeed : Complete feed) (hs' : Selects lower wanted out.feed s') (r' : Row) :
    isPatched (s'.spans out.feed) s'.bikeCandidates r' = false := by
  by_cases hcandidate : r'.get "trip_id" ∈ s'.bikeCandidates
  · obtain ⟨header, -, hread, hsame⟩ := read_trips hs hw hfeed
    have hmetro := hcandidate
    rw [hs'.bikeCandidates] at hmetro
    obtain ⟨r₂', hr₂', hid⟩ := List.mem_map.mp hmetro
    obtain ⟨hr₂', hbikes⟩ := List.mem_filter.mp hr₂'
    obtain ⟨htrip', hroute⟩ := mem_having.mp hr₂'
    rw [hs'.trips_eq, (accepted_again hs hw hfeed).2, hread] at htrip'
    obtain ⟨r, hr, rfl⟩ := List.mem_map.mp htrip'
    have hget : ∀ column, column ≠ "bikes_allowed" →
        (readAgain feed s header r).get column = r.get column := by
      intro column hcolumn
      rw [Row.get, (hsame r hr).1 column hcolumn, Row.get]
    rw [hget "trip_id" (by decide)] at hid
    rw [hget "route_id" (by decide), hs'.routes_eq, keptRoutes_again hs hw hfeed] at hroute
    rw [decide_eq_true_eq, ne_eq, (hsame r hr).2] at hbikes
    -- the row was not patched in the first run, though its trip was a candidate
    have hunpatched : isPatched (s.spans feed) s.bikeCandidates r = false := by
      rw [← Bool.not_eq_true]
      intro hpatched
      rw [patch, if_pos hpatched] at hbikes
      exact hbikes get_set_self
    rw [patch, hunpatched, if_neg Bool.false_ne_true] at hbikes
    have hfirst : r'.get "trip_id" ∈ s.bikeCandidates := by
      rw [hs.bikeCandidates, ← hid]
      refine List.mem_map_of_mem (List.mem_filter.mpr ⟨mem_having.mpr ⟨hr, hroute⟩, ?_⟩)
      exact decide_eq_true hbikes
    have hspan : s'.spans out.feed (r'.get "trip_id") = s.spans feed (r'.get "trip_id") := by
      rw [Selection.spans, Selection.spans, stopTimes_again hs hw hfeed hs']
      exact spansOf_congr (iff_of_true hcandidate hfirst)
    rw [isPatched, hid] at hunpatched
    rw [isPatched, hspan]
    cases hlast : s.spans feed (r'.get "trip_id") with
    | none => rfl
    | some span =>
        have htouches : offPeak span = false := by simpa [hlast, hfirst] using hunpatched
        simp [htouches]
  · rw [isPatched]
    split
    · simp [hcandidate]
    · rfl

/-! ### Member by member -/

/-- What is written again under the same header and of the same rows is the same. -/
theorem write_again {member member' : Option File} (h : write fields rows = .ok member)
    (h' : write fields rows = .ok member') : member' = member :=
  Except.ok.inj (h'.symm.trans h)

variable (hs : Selects lower wanted feed s) (hw : Writes order feed s out) (hfeed : Complete feed)
  (hs' : Selects lower wanted out.feed s') (hw' : Writes order' out.feed s' out')

include hs hw hfeed hs' hw'

theorem agency_again : out'.feed.agency = out.feed.agency := by
  have hagain := hw'.agency
  rw [read_agency hs hw hfeed, hs'.agencies_eq, keptAgencies_again hs hw hfeed] at hagain
  exact write_again hw.agency hagain

theorem routes_again : out'.feed.routes = out.feed.routes := by
  have hagain := hw'.routes
  rw [read_routes hs hw hfeed, hs'.routes_eq, keptRoutes_again hs hw hfeed] at hagain
  exact write_again hw.routes hagain

theorem stopTimesMember_again : out'.feed.stopTimes = out.feed.stopTimes := by
  have hagain := hw'.stopTimes
  rw [stopTimes_again hs hw hfeed hs', read_stopTimes hs hw hfeed] at hagain
  exact write_again hw.stopTimes hagain

theorem patched_again : out'.patched = 0 := by
  rw [hw'.patched, List.countP_eq_zero]
  intro r' _
  rw [unpatched_again hs hw hfeed hs' r']
  exact Bool.false_ne_true

theorem trips_again : out'.feed.trips = out.feed.trips := by
  obtain ⟨header, hwritten, hread, -⟩ := read_trips hs hw hfeed
  have hagain := hw'.trips
  have hkeeps : s'.trips.map (patch (s'.spans out.feed) s'.bikeCandidates) = s'.trips := by
    conv_rhs => rw [← List.map_id s'.trips]
    refine List.map_congr_left fun r' _ => ?_
    rw [patch, unpatched_again hs hw hfeed hs' r', if_neg Bool.false_ne_true, id_eq]
  rw [hkeeps, patched_again hs hw hfeed hs' hw', hs'.trips_eq, (accepted_again hs hw hfeed).2,
    hread, tripFields_some] at hagain
  simp only [ne_eq, not_true_eq_false, false_and, if_false, List.append_nil] at hagain
  rw [hwritten]
  exact (Except.ok.inj hagain).symm

/-- The stops are written in the order of another set. -/
theorem stops_again : SameMember out.feed.stops out'.feed.stops := by
  obtain ⟨header, hheader, hstops⟩ := write_eq_ok.mp hw.stops
  have hagain := hw'.stops
  rw [keep_again hs hw hfeed hs', read_stops hw hfeed, hheader] at hagain
  refine Or.inr ⟨header, _, _, hstops, (Except.ok.inj hagain).symm, List.Perm.map _ ?_⟩
  have horders : (order.list (s.keep feed)).Perm (order'.list (s.keep feed)) :=
    (List.perm_ext_iff_of_nodup (order.nodup _) (order'.nodup _)).mpr fun id => by
      rw [order.mem, order'.mem]
  have hfound : (order'.list (s.keep feed)).filterMap (allStops (stopRows order feed s)) =
      (order'.list (s.keep feed)).filterMap (allStops (read feed.stops).rows) :=
    List.filterMap_congr fun id hid => allStops_again ((order'.mem _ _).mp hid)
  rw [hfound]
  exact horders.filterMap _

/-- The members that a feed need not have: each is filtered by what is the same again. -/
theorem optional_again :
    out'.feed.calendar = out.feed.calendar ∧
      out'.feed.calendarDates = out.feed.calendarDates ∧ out'.feed.shapes = out.feed.shapes ∧
      out'.feed.transfers = out.feed.transfers ∧ out'.feed.frequencies = out.feed.frequencies ∧
      out'.feed.feedInfo = out.feed.feedInfo := by
  have hserviceIds : s'.serviceIds = s.serviceIds := by
    rw [hs'.serviceIds, tripColumn_again hs hw hfeed hs' (by decide), hs.serviceIds]
  have hshapeIds : s'.shapeIds = s.shapeIds := by
    rw [hs'.shapeIds, tripColumn_again hs hw hfeed hs' (by decide), hs.shapeIds]
  have hfull : ∀ {member : Option File}, member ∈ feed.members →
      FullUnder (read member).fields (read member).rows :=
    fun hmember => fullUnder_read hfeed hmember
  refine ⟨?_, ?_, ?_, ?_, ?_, ?_⟩
  · rw [hw'.calendar, hserviceIds, hw.calendar]
    exact writeIf_again (hfull (by simp [Feed.members]))
  · rw [hw'.calendarDates, hserviceIds, hw.calendarDates]
    exact writeIf_again (hfull (by simp [Feed.members]))
  · rw [hw'.shapes, hshapeIds, hw.shapes]
    exact writeIf_again (hfull (by simp [Feed.members]))
  · rw [hw'.transfers, keep_again hs hw hfeed hs', hw.transfers]
    exact writeIf_again (hfull (by simp [Feed.members]))
  · rw [hw'.frequencies, tripIds_again hs hw hfeed hs', hw.frequencies]
    exact writeIf_again (hfull (by simp [Feed.members]))
  · have hmember : feed.feedInfo ∈ feed.members := by simp [Feed.members]
    have hagain := writeIf_again (p := fun _ => true) (hfull hmember)
    simp only [List.filter_true] at hagain
    rw [hw'.feedInfo, hw.feedInfo]
    exact hagain

end Again

theorem SameMember.of_eq {member member' : Option File} (heq : member' = member) :
    SameMember member member' := by
  subst heq
  cases member' with
  | none => exact Or.inl ⟨rfl, rfl⟩
  | some file => exact Or.inr ⟨_, _, _, rfl, rfl, List.Perm.refl _⟩

/-- **Filtering is idempotent.**  Where `main` succeeds on a complete feed, it succeeds on
    what it wrote, patches no trip, and writes every member again: the same header and the
    same rows. -/
theorem filter_again (lower : String → String) (order order' : SetOrder) (agencyMatch : String)
    (feed : Feed) (out : Filtered) (hout : main lower order agencyMatch feed = .ok out)
    (hfeed : Complete feed) :
    ∃ out', main lower order' agencyMatch out.feed = .ok out' ∧ out'.patched = 0 ∧
      List.Forall₂ SameMember out.feed.members out'.feed.members := by
  obtain ⟨s, hs, hw⟩ := main_eq_ok.mp hout
  have hagain : ∃ out', main lower order' agencyMatch out.feed = .ok out' :=
    main_isOk_iff.mpr (accepted_again hs hw hfeed).1
  obtain ⟨out', hout'⟩ := hagain
  obtain ⟨s', hs', hw'⟩ := main_eq_ok.mp hout'
  refine ⟨out', hout', patched_again hs hw hfeed hs' hw', ?_⟩
  have hagency := agency_again hs hw hfeed hs' hw'
  have hroutes := routes_again hs hw hfeed hs' hw'
  have htrips := trips_again hs hw hfeed hs' hw'
  have hstopTimes := stopTimesMember_again hs hw hfeed hs' hw'
  have hstops := stops_again hs hw hfeed hs' hw'
  obtain ⟨hcalendar, hcalendarDates, hshapes, htransfers, hfrequencies, hfeedInfo⟩ :=
    optional_again hs hw hfeed hs' hw'
  exact .cons (.of_eq hagency) <| .cons (.of_eq hroutes) <| .cons (.of_eq htrips) <|
    .cons (.of_eq hstopTimes) <| .cons hstops <| .cons (.of_eq hcalendar) <|
    .cons (.of_eq hcalendarDates) <| .cons (.of_eq hshapes) <| .cons (.of_eq htransfers) <|
    .cons (.of_eq hfrequencies) <| .cons (.of_eq hfeedInfo) .nil

theorem sharedStation_complete : Complete (sharedStation []) := by
  simp [Complete, Feed.members, sharedStation]

/-- A feed whose metro trip is patched in the first run, in a column that run adds. -/
theorem filter_again_sharedStation :
    ∃ out out', main asciiLower someOrder "GVB" (sharedStation []) = .ok out ∧
      main asciiLower someOrder "GVB" out.feed = .ok out' ∧ out'.patched = 0 := by
  have hout : ∃ out, main asciiLower someOrder "GVB" (sharedStation []) = .ok out :=
    main_isOk_iff.mpr (sharedStation_accepted [])
  obtain ⟨out, hout⟩ := hout
  obtain ⟨out', hout', hpatched, -⟩ :=
    filter_again asciiLower someOrder someOrder "GVB" _ out hout sharedStation_complete
  exact ⟨out, out', hout, hout', hpatched⟩

end FietsOfOv.Gtfs
