import FietsOfOv.Gtfs.Filter

/-!
# The references of the filtered feed

What the feed that `main` writes holds, and which of its references resolve.
-/

namespace FietsOfOv.Gtfs

open Csv
open Text (asciiLower)

/-! ## References -/

/-- A column of some rows that names other rows by one of theirs. -/
structure Reference where
  rows : List Row
  column : String
  targets : List Row
  targetColumn : String

/-- Every value in the column is that of a target; an empty cell names nothing. -/
def Reference.Resolves (ref : Reference) : Prop :=
  ∀ r ∈ ref.rows, truthy (r.get ref.column) →
    ∃ target ∈ ref.targets, target.get ref.targetColumn = r.get ref.column

/-- The rows of a feed that have references or are referred to. -/
structure Rows where
  agency : List Row
  routes : List Row
  trips : List Row
  /-- calendar and calendar_dates -/
  services : List Row
  shapes : List Row
  stopTimes : List Row
  stops : List Row
  transfers : List Row
  frequencies : List Row

def Rows.references (t : Rows) : List Reference :=
  [⟨t.routes, "agency_id", t.agency, "agency_id"⟩,
   ⟨t.trips, "route_id", t.routes, "route_id"⟩,
   ⟨t.trips, "service_id", t.services, "service_id"⟩,
   ⟨t.trips, "shape_id", t.shapes, "shape_id"⟩,
   ⟨t.stopTimes, "trip_id", t.trips, "trip_id"⟩,
   ⟨t.stopTimes, "stop_id", t.stops, "stop_id"⟩,
   ⟨t.stops, "parent_station", t.stops, "stop_id"⟩,
   ⟨t.frequencies, "trip_id", t.trips, "trip_id"⟩,
   ⟨t.transfers, "from_stop_id", t.stops, "stop_id"⟩,
   ⟨t.transfers, "to_stop_id", t.stops, "stop_id"⟩,
   ⟨t.transfers, "from_route_id", t.routes, "route_id"⟩,
   ⟨t.transfers, "to_route_id", t.routes, "route_id"⟩,
   ⟨t.transfers, "from_trip_id", t.trips, "trip_id"⟩,
   ⟨t.transfers, "to_trip_id", t.trips, "trip_id"⟩]

def Feed.rows (feed : Feed) : Rows where
  agency := (read feed.agency).rows
  routes := (read feed.routes).rows
  trips := (read feed.trips).rows
  services := (read feed.calendar).rows ++ (read feed.calendarDates).rows
  shapes := (read feed.shapes).rows
  stopTimes := (read feed.stopTimes).rows
  stops := (read feed.stops).rows
  transfers := (read feed.transfers).rows
  frequencies := (read feed.frequencies).rows

/-- Every reference of every row resolves. -/
def Rows.Intact (t : Rows) : Prop := ∀ ref ∈ t.references, ref.Resolves

instance (ref : Reference) : Decidable ref.Resolves :=
  inferInstanceAs (Decidable (∀ r ∈ ref.rows, truthy (r.get ref.column) →
    ∃ target ∈ ref.targets, target.get ref.targetColumn = r.get ref.column))

instance (t : Rows) : Decidable t.Intact :=
  inferInstanceAs (Decidable (∀ ref ∈ t.references, ref.Resolves))

def UniqueStops (feed : Feed) : Prop := ((read feed.stops).rows.map (·.get "stop_id")).Nodup

instance (feed : Feed) : Decidable (UniqueStops feed) :=
  inferInstanceAs (Decidable ((read feed.stops).rows.map (·.get "stop_id")).Nodup)

/-! ## What is to be kept -/

section Kept

variable (lower : String → String) (wanted : String) (feed : Feed)

/-- The stops those stop_times reference, and all their ancestors. -/
inductive KeptStop : Option String → Prop where
  | used {r : Row} : r ∈ keptStopTimes lower wanted feed → KeptStop (r.get "stop_id")
  | station {r : Row} : KeptStop (r.get "stop_id") → r ∈ (read feed.stops).rows →
      truthy (r.get "parent_station") → KeptStop (r.get "parent_station")

/-- The member has the columns of the original, and a line for each of the rows. -/
def Holds (member original : Option File) (rows : List Row) : Prop :=
  ∃ header, (read original).fields = some header ∧
    member = some ⟨header, rows.map (writeRow header)⟩

/-- A feed holds what is to be kept; of the trips, the column `bikes_allowed` may have
    changed. -/
structure Exact (out : Feed) : Prop where
  agency : Holds out.agency feed.agency (keptAgencies lower wanted feed)
  routes : Holds out.routes feed.routes (keptRoutes lower wanted feed)
  trips : ∃ header extra rows, (read feed.trips).fields = some header ∧
    extra ⊆ ["bikes_allowed"] ∧
    out.trips = some ⟨header ++ extra, rows.map (writeRow (header ++ extra))⟩ ∧
    List.Forall₂ (fun r r' => ∀ column, column ≠ "bikes_allowed" → r' column = r column)
      (keptTrips lower wanted feed) rows
  stopTimes : Holds out.stopTimes feed.stopTimes (keptStopTimes lower wanted feed)
  stops : ∃ rows, Holds out.stops feed.stops rows ∧ (rows.map (·.get "stop_id")).Nodup ∧
    ∀ r, r ∈ rows ↔ r ∈ (read feed.stops).rows ∧ KeptStop lower wanted feed (r.get "stop_id")

/-- Every transfer between two kept stops names only kept routes and kept trips. -/
def TransfersStay : Prop :=
  ∀ r ∈ (read feed.transfers).rows,
    KeptStop lower wanted feed (r.get "from_stop_id") →
    KeptStop lower wanted feed (r.get "to_stop_id") →
    (∀ column ∈ ["from_route_id", "to_route_id"], truthy (r.get column) →
      r.get column ∈ (keptRoutes lower wanted feed).map (·.get "route_id")) ∧
    ∀ column ∈ ["from_trip_id", "to_trip_id"], truthy (r.get column) →
      r.get column ∈ (keptTrips lower wanted feed).map (·.get "trip_id")

end Kept

/-! ## Rows and the lines written of them -/

/-- The rows have the same values, except that a value may be missing in one and empty in
    the other. -/
def Alike (r r' : Row) : Prop :=
  ∀ column, truthy (r.get column) ∨ truthy (r'.get column) → r'.get column = r.get column

/-- The second rows are the first as a file shows them. -/
structure Copied (rows rows' : List Row) : Prop where
  back : ∀ r' ∈ rows', ∃ r ∈ rows, Alike r r'
  forth : ∀ r ∈ rows, ∀ column, truthy (r.get column) → ∃ r' ∈ rows', Alike r r'

/-- The rows have no columns besides the fields. -/
def Under (fields : Option (List String)) (rows : List Row) : Prop :=
  ∀ header, fields = some header → ∀ r ∈ rows, ∀ column, column ∉ header → r column = none

variable {lower : String → String} {wanted column targetColumn : String} {feed : Feed}
  {order : SetOrder} {rows rows' targets targets' : List Row} {r r' : Row}
  {ids : List (Option String)} {fields : Option (List String)} {header : List String}

theorem truthy_iff {value : Option String} :
    truthy value = true ↔ ∃ text, value = some text ∧ text ≠ "" := by
  cases value <;> simp [truthy]

theorem Copied.append (h : Copied rows rows') (h' : Copied targets targets') :
    Copied (rows ++ targets) (rows' ++ targets') where
  back := by
    intro r' hr'
    rcases List.mem_append.mp hr' with hr' | hr'
    · obtain ⟨r, hr, halike⟩ := h.back r' hr'
      exact ⟨r, List.mem_append_left _ hr, halike⟩
    · obtain ⟨r, hr, halike⟩ := h'.back r' hr'
      exact ⟨r, List.mem_append_right _ hr, halike⟩
  forth := by
    intro r hr column hcolumn
    rcases List.mem_append.mp hr with hr | hr
    · obtain ⟨r', hr', halike⟩ := h.forth r hr column hcolumn
      exact ⟨r', List.mem_append_left _ hr', halike⟩
    · obtain ⟨r', hr', halike⟩ := h'.forth r hr column hcolumn
      exact ⟨r', List.mem_append_right _ hr', halike⟩

/-- A reference between copies resolves where it resolves between the originals. -/
theorem Copied.resolves_iff (h : Copied rows rows') (h' : Copied targets targets') :
    Reference.Resolves ⟨rows', column, targets', targetColumn⟩ ↔
      Reference.Resolves ⟨rows, column, targets, targetColumn⟩ := by
  constructor
  · intro hresolves r hr hvalue
    obtain ⟨r', hr', halike⟩ := h.forth r hr column hvalue
    have hsame : r'.get column = r.get column := halike column (Or.inl hvalue)
    obtain ⟨target', htarget', heq'⟩ := hresolves r' hr' (hsame ▸ hvalue)
    obtain ⟨target, htarget, halike'⟩ := h'.back target' htarget'
    refine ⟨target, htarget, ?_⟩
    have hfound : truthy (target'.get targetColumn) := by
      rw [heq', hsame]
      exact hvalue
    exact (halike' targetColumn (Or.inr hfound)).symm.trans (heq'.trans hsame)
  · intro hresolves r' hr' hvalue
    obtain ⟨r, hr, halike⟩ := h.back r' hr'
    have hsame : r'.get column = r.get column := halike column (Or.inr hvalue)
    obtain ⟨target, htarget, heq⟩ := hresolves r hr (hsame ▸ hvalue)
    have hfound : truthy (target.get targetColumn) := by
      rw [heq, ← hsame]
      exact hvalue
    obtain ⟨target', htarget', halike'⟩ := h'.forth target htarget targetColumn hfound
    exact ⟨target', htarget', (halike' targetColumn (Or.inl hfound)).trans (heq.trans hsame.symm)⟩

theorem Under.sublist (h : Under fields rows) (hsub : ∀ r ∈ rows', r ∈ rows) :
    Under fields rows' :=
  fun header hheader r hr => h header hheader r (hsub r hr)

theorem under_read (member : Option File) : Under (read member).fields (read member).rows := by
  cases member with
  | none => simp [Under, read]
  | some file =>
      rintro header hheader r hr column hcolumn
      obtain rfl : file.header = header := Option.some.inj hheader
      obtain ⟨cells, -, rfl⟩ := List.mem_map.mp hr
      exact readRow_eq_none.mpr hcolumn

/-- What is read back of rows that were written. -/
theorem rows_read_written (rows : List Row) :
    (read (some ⟨header, rows.map (writeRow header)⟩)).rows =
    if header = [] then [] else rows.map (·.written header) := by
  by_cases hheader : header = []
  · rw [if_pos hheader]
    simp [read, readRows, writeRow, hheader]
  · have hlines : (rows.map (writeRow header)).filter (· ≠ []) = rows.map (writeRow header) := by
      rw [List.filter_eq_self]
      intro line hline
      obtain ⟨r, -, rfl⟩ := List.mem_map.mp hline
      simp [writeRow, hheader]
    rw [if_neg hheader]
    simp only [read, readRows, hlines, List.map_map]
    rfl

theorem alike_written (hcolumns : ∀ column, column ∉ header → r column = none) :
    Alike r (r.written header) := by
  intro column hvalue
  rcases hvalue with hvalue | hvalue
  · obtain ⟨text, htext, hne⟩ := truthy_iff.mp hvalue
    rw [htext, get_written_eq_some (hcolumns column) hne, htext]
  · obtain ⟨text, htext, hne⟩ := truthy_iff.mp hvalue
    rw [htext, (get_written_eq_some (hcolumns column) hne).mp htext]

theorem copied_written (hunder : Under (some header) rows) :
    Copied rows (read (some ⟨header, rows.map (writeRow header)⟩)).rows := by
  rw [rows_read_written]
  constructor
  · intro r' hr'
    split at hr'
    · cases hr'
    · obtain ⟨r, hr, rfl⟩ := List.mem_map.mp hr'
      exact ⟨r, hr, alike_written (hunder header rfl r hr)⟩
  · intro r hr column hvalue
    have hheader : header ≠ [] := by
      rintro rfl
      have hnone : r.get column = none := by
        rw [Row.get, hunder [] rfl r hr column (by simp)]
        rfl
      simp [truthy, hnone] at hvalue
    rw [if_neg hheader]
    exact ⟨_, List.mem_map_of_mem hr, alike_written (hunder header rfl r hr)⟩

theorem copied_write {member : Option File} (hwrite : write fields rows = .ok member)
    (hunder : Under fields rows) : Copied rows (read member).rows := by
  obtain ⟨header, rfl, rfl⟩ := write_eq_ok.mp hwrite
  exact copied_written hunder

theorem copied_writeIf (hunder : Under fields rows) (hrows : fields = none → rows = []) :
    Copied rows (read (writeIf fields rows)).rows := by
  match fields with
  | none =>
      rw [hrows rfl]
      exact ⟨by simp [writeIf, read], by simp⟩
  | some [] =>
      constructor
      · simp [writeIf, read]
      · intro r hr column hvalue
        have hnone : r.get column = none := by
          rw [Row.get, hunder [] rfl r hr column (by simp)]
          rfl
        simp [truthy, hnone] at hvalue
  | some (first :: header) => exact copied_written hunder

/-! ## The feed that is written -/

section Written

variable {s : Selection} {out : Filtered}

/-- The search for stations finds the stops that are to be kept. -/
theorem Selects.mem_keep (h : Selects lower wanted feed s) (hunique : UniqueStops feed)
    {id : Option String} : id ∈ s.keep feed ↔ KeptStop lower wanted feed id := by
  rw [Selection.keep, mem_keptStops, h.stopTimes_eq]
  constructor
  · intro hreach
    induction hreach with
    | start hid =>
        obtain ⟨r, hr, rfl⟩ := List.mem_map.mp (List.mem_toFinset.mp hid)
        exact KeptStop.used hr
    | next _ hstation ih =>
        obtain ⟨r, hr, htruthy, rfl⟩ := mem_parents.mp hstation
        obtain ⟨hmem, rfl⟩ := allStops_mem hr
        exact KeptStop.station ih hmem htruthy
  · intro hkept
    induction hkept with
    | used hr => exact Closure.Reaches.start (List.mem_toFinset.mpr (List.mem_map_of_mem hr))
    | station _ hmem htruthy ih =>
        refine Closure.Reaches.next ih (mem_parents.mpr ⟨_, ?_, htruthy, rfl⟩)
        exact (allStops_eq_some hunique).mpr ⟨hmem, rfl⟩

/-- The stops rows that are written. -/
def stopRows (order : SetOrder) (feed : Feed) (s : Selection) : List Row :=
  (order.list (s.keep feed)).filterMap (allStops (read feed.stops).rows)

theorem mem_stopRows (hunique : UniqueStops feed) :
    r ∈ stopRows order feed s ↔ r ∈ (read feed.stops).rows ∧ r.get "stop_id" ∈ s.keep feed := by
  rw [stopRows, List.mem_filterMap]
  constructor
  · rintro ⟨id, hid, hstop⟩
    obtain ⟨hmem, rfl⟩ := allStops_mem hstop
    exact ⟨hmem, (order.mem _ _).mp hid⟩
  · rintro ⟨hmem, hkeep⟩
    exact ⟨_, (order.mem _ _).mpr hkeep, (allStops_eq_some hunique).mpr ⟨hmem, rfl⟩⟩

theorem nodup_stopRows : ((stopRows order feed s).map (·.get "stop_id")).Nodup := by
  have hids : ∀ ids : List (Option String), ids.Nodup →
      ((ids.filterMap (allStops (read feed.stops).rows)).map (·.get "stop_id")).Nodup := by
    intro ids hnodup
    induction ids with
    | nil => exact List.nodup_nil
    | cons id ids ih =>
        obtain ⟨hnew, hrest⟩ := List.nodup_cons.mp hnodup
        cases hstop : allStops (read feed.stops).rows id with
        | none =>
            rw [List.filterMap_cons_none hstop]
            exact ih hrest
        | some r =>
            rw [List.filterMap_cons_some hstop, List.map_cons, List.nodup_cons]
            refine ⟨?_, ih hrest⟩
            rw [(allStops_mem hstop).2]
            intro hmem
            obtain ⟨r', hr', heq⟩ := List.mem_map.mp hmem
            obtain ⟨id', hid', hstop'⟩ := List.mem_filterMap.mp hr'
            exact hnew (heq ▸ (allStops_mem hstop').2 ▸ hid')
  exact hids _ (order.nodup _)

theorem holds_of_write {member original : Option File}
    (h : write (read original).fields rows = .ok member) : Holds member original rows :=
  write_eq_ok.mp h

/-- Everything that is to be kept is written, and nothing else. -/
theorem exact_of_writes (hs : Selects lower wanted feed s) (hw : Writes order feed s out)
    (hunique : UniqueStops feed) : Exact lower wanted feed out.feed where
  agency := by
    rw [← hs.agencies_eq]
    exact holds_of_write hw.agency
  routes := by
    rw [← hs.routes_eq]
    exact holds_of_write hw.routes
  trips := by
    obtain ⟨header', hheader', htrips⟩ := write_eq_ok.mp hw.trips
    cases hfields : (read feed.trips).fields with
    | none =>
        have hnone : s.trips = [] := by
          rw [hs.trips, rows_of_fields_none hfields]
          rfl
        simp [hfields, tripFields, hw.patched, hnone] at hheader'
    | some header =>
        rw [hfields, tripFields_some, Option.some.injEq] at hheader'
        refine ⟨header, _, _, rfl, ?_, hheader' ▸ htrips, ?_⟩
        · split <;> simp
        · rw [← hs.trips_eq, List.forall₂_map_right_iff, List.forall₂_same]
          exact fun r _ column hne => patch_of_ne hne
  stopTimes := by
    rw [← hs.stopTimes_eq]
    exact holds_of_write hw.stopTimes
  stops := by
    refine ⟨stopRows order feed s, holds_of_write hw.stops, nodup_stopRows, fun r => ?_⟩
    rw [mem_stopRows hunique, hs.mem_keep hunique]

/-- The patch gives no row a column that is not written. -/
theorem under_patched (hs : Selects lower wanted feed s) (hw : Writes order feed s out) :
    Under (tripFields (read feed.trips).fields out.patched)
      (s.trips.map (patch (s.spans feed) s.bikeCandidates)) := by
  intro header' hheader' r' hr' column hcolumn
  obtain ⟨r, hr, rfl⟩ := List.mem_map.mp hr'
  have hrow : r ∈ (read feed.trips).rows := hs.mem_trips hr
  cases hfields : (read feed.trips).fields with
  | none =>
      rw [rows_of_fields_none hfields] at hrow
      cases hrow
  | some header =>
      rw [hfields, tripFields_some, Option.some.injEq] at hheader'
      subst hheader'
      rw [List.mem_append, not_or] at hcolumn
      have hnone : r column = none := under_read feed.trips header hfields r hrow column hcolumn.1
      rw [patch]
      split
      · rename_i hpatched
        have hcount : out.patched ≠ 0 := by
          rw [hw.patched]
          exact Nat.ne_of_gt (List.countP_pos_iff.mpr ⟨r, hr, hpatched⟩)
        have hne : column ≠ "bikes_allowed" := by
          rintro rfl
          simp [hcount, hcolumn.1] at hcolumn
        rw [Row.set, Function.update_of_ne hne, hnone]
      · exact hnone

theorem copied_trips (hs : Selects lower wanted feed s) (hw : Writes order feed s out) :
    Copied (s.trips.map (patch (s.spans feed) s.bikeCandidates)) (read out.feed.trips).rows :=
  copied_write hw.trips (under_patched hs hw)

/-- The second rows are the first as the files of a feed show them. -/
structure Rows.Shown (t t' : Rows) : Prop where
  agency : Copied t.agency t'.agency
  routes : Copied t.routes t'.routes
  trips : Copied t.trips t'.trips
  services : Copied t.services t'.services
  shapes : Copied t.shapes t'.shapes
  stopTimes : Copied t.stopTimes t'.stopTimes
  stops : Copied t.stops t'.stops
  transfers : Copied t.transfers t'.transfers
  frequencies : Copied t.frequencies t'.frequencies

theorem Rows.Shown.intact_iff {t t' : Rows} (h : t.Shown t') : t'.Intact ↔ t.Intact := by
  simp only [Rows.Intact, Rows.references, List.forall_mem_cons, List.not_mem_nil, false_implies,
    implies_true, and_true, h.routes.resolves_iff h.agency, h.trips.resolves_iff h.routes,
    h.trips.resolves_iff h.services, h.trips.resolves_iff h.shapes,
    h.stopTimes.resolves_iff h.trips, h.stopTimes.resolves_iff h.stops,
    h.stops.resolves_iff h.stops, h.frequencies.resolves_iff h.trips,
    h.transfers.resolves_iff h.stops, h.transfers.resolves_iff h.routes,
    h.transfers.resolves_iff h.trips]

/-- The rows `main` writes. -/
def Selection.written (order : SetOrder) (feed : Feed) (s : Selection) : Rows where
  agency := s.agencies
  routes := s.routes
  trips := s.trips.map (patch (s.spans feed) s.bikeCandidates)
  services := having "service_id" s.serviceIds (read feed.calendar).rows ++
    having "service_id" s.serviceIds (read feed.calendarDates).rows
  shapes := having "shape_id" s.shapeIds (read feed.shapes).rows
  stopTimes := s.stopTimes feed
  stops := stopRows order feed s
  transfers := (read feed.transfers).rows.filter fun r =>
    r.get "from_stop_id" ∈ s.keep feed && r.get "to_stop_id" ∈ s.keep feed
  frequencies := having "trip_id" s.tripIds (read feed.frequencies).rows

theorem shown_of_writes (hs : Selects lower wanted feed s) (hw : Writes order feed s out) :
    (s.written order feed).Shown out.feed.rows := by
  have hwritten : ∀ {member original : Option File} {rows : List Row},
      write (read original).fields rows = .ok member → (∀ r ∈ rows, r ∈ (read original).rows) →
        Copied rows (read member).rows :=
    fun hwrite hsub => copied_write hwrite ((under_read _).sublist hsub)
  have hfiltered : ∀ {member original : Option File} {p : Row → Bool},
      member = writeIf (read original).fields ((read original).rows.filter p) →
        Copied ((read original).rows.filter p) (read member).rows := by
    rintro member original p rfl
    refine copied_writeIf ((under_read _).sublist fun r hr => List.mem_of_mem_filter hr) ?_
    intro hnone
    rw [rows_of_fields_none hnone]
    rfl
  exact {
    agency := hwritten hw.agency fun r hr => hs.mem_agencies hr
    routes := hwritten hw.routes fun r hr => hs.mem_routes hr
    trips := copied_trips hs hw
    services := (hfiltered hw.calendar).append (hfiltered hw.calendarDates)
    shapes := hfiltered hw.shapes
    stopTimes := hwritten hw.stopTimes fun r hr => (mem_having.mp hr).1
    stops := hwritten hw.stops fun r hr => by
      obtain ⟨id, -, hstop⟩ := List.mem_filterMap.mp hr
      exact (allStops_mem hstop).1
    transfers := hfiltered hw.transfers
    frequencies := hfiltered hw.frequencies }

/-! ### The references between the rows that are written -/

theorem resolves_having {column' : String}
    (hids : ∀ id ∈ ids, ∃ target ∈ targets, target.get column' = id) :
    Reference.Resolves ⟨having column ids rows, column, targets, column'⟩ :=
  fun _ hr _ => hids _ (mem_having.mp hr).2

/-- A reference of rows that are kept resolves to rows that are kept by it. -/
theorem Reference.Resolves.having (h : Reference.Resolves ⟨rows, column, targets, targetColumn⟩)
    (hsub : ∀ r ∈ rows', r ∈ rows)
    (hids : ∀ r ∈ rows', truthy (r.get column) → r.get column ∈ ids) :
    Reference.Resolves ⟨rows', column, having targetColumn ids targets, targetColumn⟩ := by
  intro r hr hvalue
  obtain ⟨target, htarget, heq⟩ := h r (hsub r hr) hvalue
  exact ⟨target, mem_having.mpr ⟨htarget, heq ▸ hids r hr hvalue⟩, heq⟩

theorem intact_iff {t : Rows} : t.Intact ↔
    (Reference.Resolves ⟨t.routes, "agency_id", t.agency, "agency_id"⟩ ∧
      Reference.Resolves ⟨t.trips, "route_id", t.routes, "route_id"⟩ ∧
      Reference.Resolves ⟨t.trips, "service_id", t.services, "service_id"⟩ ∧
      Reference.Resolves ⟨t.trips, "shape_id", t.shapes, "shape_id"⟩ ∧
      Reference.Resolves ⟨t.stopTimes, "trip_id", t.trips, "trip_id"⟩ ∧
      Reference.Resolves ⟨t.stopTimes, "stop_id", t.stops, "stop_id"⟩ ∧
      Reference.Resolves ⟨t.stops, "parent_station", t.stops, "stop_id"⟩ ∧
      Reference.Resolves ⟨t.frequencies, "trip_id", t.trips, "trip_id"⟩) ∧
    (∀ column ∈ ["from_stop_id", "to_stop_id"],
      Reference.Resolves ⟨t.transfers, column, t.stops, "stop_id"⟩) ∧
    (∀ column ∈ ["from_route_id", "to_route_id"],
      Reference.Resolves ⟨t.transfers, column, t.routes, "route_id"⟩) ∧
    ∀ column ∈ ["from_trip_id", "to_trip_id"],
      Reference.Resolves ⟨t.transfers, column, t.trips, "trip_id"⟩ := by
  simp only [Rows.Intact, Rows.references, List.forall_mem_cons, List.not_mem_nil, false_implies,
    implies_true, and_true, and_assoc]

theorem mem_map_patch {ids : List (Option String)} {spans : Spans} {trips : List Row}
    (hids : ids = trips.map (·.get "trip_id")) :
    ∀ id ∈ ids, ∃ r ∈ trips.map (patch spans s.bikeCandidates), r.get "trip_id" = id := by
  rw [hids]
  intro id hid
  obtain ⟨r, hr, rfl⟩ := List.mem_map.mp hid
  refine ⟨_, List.mem_map_of_mem hr, ?_⟩
  rw [Row.get, patch_of_ne (by decide), Row.get]

/-- A column that is not patched refers to what it referred to. -/
theorem resolves_patched {spans : Spans} {candidates : List (Option String)}
    (hcolumn : column ≠ "bikes_allowed")
    (h : Reference.Resolves ⟨rows, column, targets, targetColumn⟩) :
    Reference.Resolves ⟨rows.map (patch spans candidates), column, targets, targetColumn⟩ := by
  intro r' hr' hvalue
  obtain ⟨r, hr, rfl⟩ := List.mem_map.mp hr'
  have hsame : (patch spans candidates r).get column = r.get column := by
    rw [Row.get, patch_of_ne hcolumn, Row.get]
  rw [hsame] at hvalue ⊢
  exact h r hr hvalue

theorem written_services : (s.written order feed).services =
    having "service_id" s.serviceIds feed.rows.services :=
  (List.filter_append (read feed.calendar).rows (read feed.calendarDates).rows).symm

/-- A reference to stops resolves to the stops that are written, if those are kept. -/
theorem Reference.Resolves.stopRows (hunique : UniqueStops feed)
    (h : Reference.Resolves ⟨rows, column, (read feed.stops).rows, "stop_id"⟩)
    (hsub : ∀ r ∈ rows', r ∈ rows)
    (hkeep : ∀ r ∈ rows', truthy (r.get column) → r.get column ∈ s.keep feed) :
    Reference.Resolves ⟨rows', column, stopRows order feed s, "stop_id"⟩ := by
  intro r hr hvalue
  obtain ⟨target, htarget, heq⟩ := h r (hsub r hr) hvalue
  have hkept : target.get "stop_id" ∈ s.keep feed := by
    rw [heq]
    exact hkeep r hr hvalue
  exact ⟨target, (mem_stopRows hunique).mpr ⟨htarget, hkept⟩, heq⟩

theorem mem_writtenTransfers : r ∈ (s.written order feed).transfers ↔
    r ∈ (read feed.transfers).rows ∧
      r.get "from_stop_id" ∈ s.keep feed ∧ r.get "to_stop_id" ∈ s.keep feed := by
  simp [Selection.written]

/-- Of the rows `main` writes, every reference resolves but those of transfers to routes and
    trips, of which nothing is asked. -/
theorem written_intact_iff (hs : Selects lower wanted feed s) (hunique : UniqueStops feed)
    (hintact : feed.rows.Intact) :
    (s.written order feed).Intact ↔
      (∀ column ∈ ["from_route_id", "to_route_id"],
        Reference.Resolves ⟨(s.written order feed).transfers, column, s.routes, "route_id"⟩) ∧
      ∀ column ∈ ["from_trip_id", "to_trip_id"],
        Reference.Resolves ⟨(s.written order feed).transfers, column,
          (s.written order feed).trips, "trip_id"⟩ := by
  obtain ⟨⟨-, -, hservice, hshape, -, hstop, hparent, -⟩, htransfer, -, -⟩ := intact_iff.mp hintact
  have hroutes : Reference.Resolves ⟨s.routes, "agency_id", s.agencies, "agency_id"⟩ := by
    rw [hs.routes]
    exact resolves_having fun id hid => List.mem_map.mp hid
  have htrips : Reference.Resolves ⟨s.trips, "route_id", s.routes, "route_id"⟩ := by
    rw [hs.trips]
    exact resolves_having fun id hid => List.mem_map.mp hid
  have hservices : Reference.Resolves ⟨s.trips, "service_id",
      having "service_id" s.serviceIds feed.rows.services, "service_id"⟩ := by
    refine hservice.having (fun r hr => hs.mem_trips hr) fun r hr hvalue => ?_
    rw [hs.serviceIds]
    exact List.mem_filter.mpr ⟨List.mem_map_of_mem hr, hvalue⟩
  have hshapes : Reference.Resolves ⟨s.trips, "shape_id",
      having "shape_id" s.shapeIds feed.rows.shapes, "shape_id"⟩ := by
    refine hshape.having (fun r hr => hs.mem_trips hr) fun r hr hvalue => ?_
    rw [hs.shapeIds]
    exact List.mem_filter.mpr ⟨List.mem_map_of_mem hr, hvalue⟩
  have hstops : Reference.Resolves
      ⟨s.stopTimes feed, "stop_id", stopRows order feed s, "stop_id"⟩ := by
    refine hstop.stopRows hunique (fun r hr => (mem_having.mp hr).1) fun r hr _ => ?_
    rw [hs.mem_keep hunique]
    rw [hs.stopTimes_eq] at hr
    exact KeptStop.used hr
  have hstations : Reference.Resolves
      ⟨stopRows order feed s, "parent_station", stopRows order feed s, "stop_id"⟩ := by
    refine hparent.stopRows hunique (fun r hr => ((mem_stopRows hunique).mp hr).1) ?_
    intro r hr hvalue
    obtain ⟨hmem, hkeep⟩ := (mem_stopRows hunique).mp hr
    rw [hs.mem_keep hunique] at hkeep ⊢
    exact KeptStop.station hkeep hmem hvalue
  rw [intact_iff]
  refine ⟨fun h => h.2.2, fun h => ⟨⟨hroutes, ?_, ?_, ?_, ?_, hstops, hstations, ?_⟩, ?_, h⟩⟩
  · exact resolves_patched (by decide) htrips
  · refine resolves_patched (by decide) ?_
    rw [written_services]
    exact hservices
  · exact resolves_patched (by decide) hshapes
  · exact resolves_having (mem_map_patch hs.tripIds)
  · exact resolves_having (mem_map_patch hs.tripIds)
  · intro column hcolumn
    refine (htransfer column hcolumn).stopRows hunique
      (fun r hr => (mem_writtenTransfers.mp hr).1) fun r hr _ => ?_
    obtain ⟨-, hfrom, hto⟩ := mem_writtenTransfers.mp hr
    simp only [List.mem_cons, List.not_mem_nil, or_false] at hcolumn
    rcases hcolumn with rfl | rfl
    · exact hfrom
    · exact hto

/-- The routes and trips that written transfers name are there if no transfer between kept
    stops names others. -/
theorem transfers_resolve_iff (hs : Selects lower wanted feed s) (hunique : UniqueStops feed) :
    ((∀ column ∈ ["from_route_id", "to_route_id"],
        Reference.Resolves ⟨(s.written order feed).transfers, column, s.routes, "route_id"⟩) ∧
      ∀ column ∈ ["from_trip_id", "to_trip_id"],
        Reference.Resolves ⟨(s.written order feed).transfers, column,
          (s.written order feed).trips, "trip_id"⟩) ↔ TransfersStay lower wanted feed := by
  have hids : ∀ {id : Option String},
      (∃ target ∈ (s.written order feed).trips, target.get "trip_id" = id) ↔
        id ∈ (keptTrips lower wanted feed).map (·.get "trip_id") := by
    intro id
    rw [← hs.trips_eq]
    constructor
    · rintro ⟨target, htarget, rfl⟩
      obtain ⟨r, hr, rfl⟩ := List.mem_map.mp htarget
      rw [Row.get, patch_of_ne (by decide), ← Row.get]
      exact List.mem_map_of_mem hr
    · exact mem_map_patch rfl id
  have hrouteIds : ∀ {id : Option String}, (∃ target ∈ s.routes, target.get "route_id" = id) ↔
      id ∈ (keptRoutes lower wanted feed).map (·.get "route_id") := by
    intro id
    rw [hs.routes_eq, List.mem_map]
  simp only [Reference.Resolves, hids, hrouteIds, mem_writtenTransfers, hs.mem_keep hunique]
  constructor
  · intro h r hr hfrom hto
    exact ⟨fun column hcolumn => h.1 column hcolumn r ⟨hr, hfrom, hto⟩,
      fun column hcolumn => h.2 column hcolumn r ⟨hr, hfrom, hto⟩⟩
  · intro h
    constructor
    · rintro column hcolumn r ⟨hr, hfrom, hto⟩
      exact (h r hr hfrom hto).1 column hcolumn
    · rintro column hcolumn r ⟨hr, hfrom, hto⟩
      exact (h r hr hfrom hto).2 column hcolumn

end Written

/-- **Referential integrity.**  Of a feed whose references resolve, `main` writes what is to
    be kept and nothing else; and the references of what it writes resolve if and only if no
    transfer between kept stops names a route or a trip that is not kept. -/
theorem feed_intact_iff (lower : String → String) (order : SetOrder) (agencyMatch : String)
    (feed : Feed) (out : Filtered) (hout : main lower order agencyMatch feed = .ok out)
    (hintact : feed.rows.Intact) (hunique : UniqueStops feed) :
    out.feed.rows.Intact ∧ Exact lower (lower agencyMatch) feed out.feed ↔
      TransfersStay lower (lower agencyMatch) feed := by
  obtain ⟨s, hs, hw⟩ := main_eq_ok.mp hout
  rw [and_iff_left (exact_of_writes hs hw hunique), (shown_of_writes hs hw).intact_iff,
    written_intact_iff hs hunique hintact, transfers_resolve_iff hs hunique]

/-! ### A station two operators share -/

noncomputable def someOrder : SetOrder where
  list := Finset.toList
  nodup := Finset.nodup_toList
  mem _ _ := Finset.mem_toList

/-- A metro and a train of two operators call at one station. -/
def sharedStation (transfers : List (List String)) : Feed where
  agency := some ⟨["agency_id", "agency_name"], [["GVB", "GVB"], ["IFF:NS", "NS"]]⟩
  routes := some ⟨["route_id", "agency_id", "route_type"],
    [["M52", "GVB", "1"], ["IC", "IFF:NS", "2"]]⟩
  trips := some ⟨["route_id", "service_id", "trip_id"],
    [["M52", "week", "metro"], ["IC", "week", "train"]]⟩
  stopTimes := some ⟨["trip_id", "arrival_time", "departure_time", "stop_id"],
    [["metro", "10:00:00", "10:00:00", "CS"], ["train", "10:05:00", "10:05:00", "CS"]]⟩
  stops := some ⟨["stop_id", "parent_station"], [["CS", ""]]⟩
  calendar := some ⟨["service_id"], [["week"]]⟩
  calendarDates := none
  shapes := none
  transfers := some ⟨["from_stop_id", "to_stop_id", "from_route_id", "to_route_id"], transfers⟩
  frequencies := none
  feedInfo := none

theorem sharedStation_accepted (transfers : List (List String)) :
    Accepted asciiLower (asciiLower "GVB") (sharedStation transfers) := by
  have hmatched : ∀ r ∈ (read (sharedStation []).agency).rows,
      (agencyMatches asciiLower (asciiLower "GVB") r).isOk = true := by decide +kernel
  have haccepted : Accepted asciiLower (asciiLower "GVB") (sharedStation []) := {
    matched := fun r hr => by
      have hok := hmatched r hr
      cases hanswer : agencyMatches asciiLower (asciiLower "GVB") r with
      | ok answer => exact ⟨answer, rfl⟩
      | error e =>
          rw [hanswer] at hok
          cases hok
    found := by decide +kernel
    agencyColumn := by decide +kernel
    routeColumn := by decide +kernel
    tripColumn := by decide +kernel
    stopColumn := by decide +kernel
    members := by decide +kernel }
  exact ⟨haccepted.matched, haccepted.found, haccepted.agencyColumn, haccepted.routeColumn,
    haccepted.tripColumn, haccepted.stopColumn, haccepted.members⟩

/-- A transfer within the metro stays intact. -/
theorem feed_intact_iff_metroTransfer :
    ∃ out, main asciiLower someOrder "GVB" (sharedStation [["CS", "CS", "M52", "M52"]]) = .ok out ∧
      out.feed.rows.Intact := by
  obtain ⟨out, hout⟩ := main_isOk_iff.mpr (sharedStation_accepted [["CS", "CS", "M52", "M52"]])
  have hstay : TransfersStay asciiLower (asciiLower "GVB")
      (sharedStation [["CS", "CS", "M52", "M52"]]) := by
    have hnamed : ∀ r ∈ (read (sharedStation [["CS", "CS", "M52", "M52"]]).transfers).rows,
        (∀ column ∈ ["from_route_id", "to_route_id"], truthy (r.get column) →
          r.get column ∈ (keptRoutes asciiLower (asciiLower "GVB")
            (sharedStation [["CS", "CS", "M52", "M52"]])).map (·.get "route_id")) ∧
        ∀ column ∈ ["from_trip_id", "to_trip_id"], truthy (r.get column) →
          r.get column ∈ (keptTrips asciiLower (asciiLower "GVB")
            (sharedStation [["CS", "CS", "M52", "M52"]])).map (·.get "trip_id") := by decide +kernel
    exact fun r hr _ _ => hnamed r hr
  have hiff := feed_intact_iff asciiLower someOrder "GVB" _ out hout (by decide +kernel)
    (by decide +kernel)
  exact ⟨out, hout, (hiff.mpr hstay).1⟩

/-- A transfer from the metro to the train names a route that is not written. -/
theorem transfer_to_cut_route :
    ¬ ∀ (lower : String → String) (order : SetOrder) (agencyMatch : String) (feed : Feed)
        (out : Filtered), main lower order agencyMatch feed = .ok out → feed.rows.Intact →
        UniqueStops feed →
        out.feed.rows.Intact ∧ Exact lower (lower agencyMatch) feed out.feed := by
  intro hall
  have hunique : UniqueStops (sharedStation [["CS", "CS", "M52", "IC"]]) := by decide +kernel
  obtain ⟨out, hout⟩ := main_isOk_iff.mpr (sharedStation_accepted [["CS", "CS", "M52", "IC"]])
  have hintact := (hall _ someOrder _ _ out hout (by decide +kernel) hunique).1
  obtain ⟨s, hs, hw⟩ := main_eq_ok.mp hout
  rw [(shown_of_writes hs hw).intact_iff, written_intact_iff hs hunique (by decide +kernel),
    transfers_resolve_iff hs hunique] at hintact
  have hkept : KeptStop asciiLower (asciiLower "GVB") (sharedStation [["CS", "CS", "M52", "IC"]])
      (some "CS") := by
    have hused : ∃ r ∈ keptStopTimes asciiLower (asciiLower "GVB")
        (sharedStation [["CS", "CS", "M52", "IC"]]), r.get "stop_id" = some "CS" := by
      decide +kernel
    obtain ⟨r, hr, hstop⟩ := hused
    exact hstop ▸ KeptStop.used hr
  have hrow : readRow ["from_stop_id", "to_stop_id", "from_route_id", "to_route_id"]
      ["CS", "CS", "M52", "IC"] ∈
        (read (sharedStation [["CS", "CS", "M52", "IC"]]).transfers).rows :=
    List.mem_singleton_self _
  have hcut := (hintact _ hrow hkept hkept).1 "to_route_id" (by decide) (by decide +kernel)
  revert hcut
  decide +kernel

end FietsOfOv.Gtfs
