import FietsOfOv.Gtfs.Archive
import FietsOfOv.Gtfs.Stations
import FietsOfOv.ImportStops
import FietsOfOv.Stops

/-!
# From the national feed to the stops that are served

`otp/scripts/filter_gtfs_gvb.py` writes an archive, `app/db/import_stops.py` reads its
stops.txt into the `stops` table, and `GET /v1/stops` answers from the table.
-/

namespace FietsOfOv

open Csv Gtfs ImportStops
open Text (asciiLower)

/-! ## Importing from an archive -/

/-- What `_read_stops` makes of a member: its line ends are made line feeds, and an empty one
    has no columns. -/
def stopsTxt : Option (List Char) → Except CsvError (Option File)
  | none => .ok none
  | some text => do
      let rows ← records fieldSizeLimit (universal (decodeSig text))
      return some ((fileOf rows).getD ⟨[], []⟩)

/-- What importing an archive can raise. -/
inductive StopsError where
  | csvError (error : CsvError)
  | importError (error : ImportError)
deriving DecidableEq

/-- `import_stops` on an archive, and the table it leaves. -/
def importArchive (zipPath : String) (zf : Archive) (table : ImportStops.Stops) :
    Except StopsError Nat × ImportStops.Stops :=
  match stopsTxt (zf "stops.txt") with
  | .error e => (.error (.csvError e), table)
  | .ok file =>
      let (count, table') := importStops zipPath file table
      (count.mapError .importError, table')

/-! ## The stops of an operator -/

section Kept

variable (lower : String → String) (wanted : String) (feed : Feed)

/-- A stop that a kept trip calls at, or a station above one, with the row it has. -/
def KeptStop (id : Option String) (r : Row) : Prop :=
  IsStop (read feed.stops).rows id r ∧
    Closure.Reaches (parents (allStops (read feed.stops).rows))
      ((keptStopTimes lower wanted feed).map (·.get "stop_id")).toFinset id

/-- A table after the stops of an operator went in: each kept stop that can be placed has the
    values of its row, the other rows are as before. -/
structure HoldsStops (before after : ImportStops.Stops) : Prop where
  held : ∀ key r v, KeptStop lower wanted feed (some key) r → parseRow r = some v →
    ∃ record, v = record.values key ∧ after key = some record
  kept : ∀ key, (∀ r, KeptStop lower wanted feed (some key) r → parseRow r = none) →
    after key = before key

/-- The table has the columns, and takes every kept stop that can be placed. -/
structure Importable : Prop where
  columns : ∀ header, (read feed.stops).fields = some header →
    ∀ column ∈ requiredColumns, column ∈ header
  storable : ∀ id r v, KeptStop lower wanted feed id r → parseRow r = some v → Storable v

end Kept

/-- No cell of stops.txt has a carriage return. -/
def NoReturns (feed : Feed) : Prop :=
  ∀ file, feed.stops = some file → ∀ record ∈ file.header :: file.lines, ∀ cell ∈ record,
    '\r' ∉ cell.toList

variable {lower : String → String} {wanted agencyMatch zipPath : String} {feed : Feed}
  {order : SetOrder} {s : Selection} {out : Filtered} {file : File} {r : Row} {v : StopValues}
  {src dst : Archive} {patched : Nat} {table table' : ImportStops.Stops} {id : Option String}
  {key : String} {count : Nat}

theorem stopId_of_parseRow (h : parseRow r = some v) : v.stopId = r.get "stop_id" := by
  unfold parseRow at h
  simp only at h
  split at h
  · cases h
  · simp only [bind, Option.bind_eq_some_iff] at h
    obtain ⟨_, -, _, -, heq⟩ := h
    split at heq
    · cases heq
      rfl
    · obtain ⟨_, -, heq⟩ := Option.bind_eq_some_iff.mp heq
      cases heq
      rfl

/-- The rows that the script writes are those of the kept stops. -/
theorem mem_stopRows (hs : Selects lower wanted feed s) :
    r ∈ stopRows order feed s ↔ ∃ id, KeptStop lower wanted feed id r := by
  have hkeep : ∀ id, id ∈ order.list (s.keep feed) ↔
      Closure.Reaches (parents (allStops (read feed.stops).rows))
        ((keptStopTimes lower wanted feed).map (·.get "stop_id")).toFinset id := by
    intro id
    rw [order.mem, Selection.keep, mem_keptStops, hs.stopTimes_eq]
  rw [stopRows, List.mem_filterMap]
  constructor
  · rintro ⟨id, hid, hstop⟩
    exact ⟨id, allStops_eq_some_iff.mp hstop, (hkeep id).mp hid⟩
  · rintro ⟨id, hstop, hid⟩
    exact ⟨id, (hkeep id).mpr hid, allStops_eq_some_iff.mpr hstop⟩

theorem KeptStop.get_eq (h : KeptStop lower wanted feed id r) : r.get "stop_id" = id := by
  obtain ⟨⟨before, after, -, hid, -⟩, -⟩ := h
  exact hid

theorem KeptStop.unique {r' : Row} (h : KeptStop lower wanted feed id r)
    (h' : KeptStop lower wanted feed id r') : r = r' := by
  have hstop := allStops_eq_some_iff.mpr h.1
  rw [allStops_eq_some_iff.mpr h'.1] at hstop
  exact (Option.some.inj hstop).symm

/-- The last row of an id is the one the kept stop has. -/
theorem lastRow_eq_some (hs : Selects lower wanted feed s)
    (hrows : readRows file = stopRows order feed s) :
    lastRow file id = some v ↔ ∃ r, KeptStop lower wanted feed id r ∧ parseRow r = some v := by
  have hfound : ∀ {v}, lastRow file id = some v →
      ∃ r, KeptStop lower wanted feed id r ∧ parseRow r = some v := by
    intro v hlast
    have hid : v.stopId = id := by simpa using List.find?_some hlast
    obtain ⟨r, hr, hparse⟩ :=
      List.mem_filterMap.mp (List.mem_reverse.mp (List.mem_of_find?_eq_some hlast))
    rw [hrows] at hr
    obtain ⟨id', hkept⟩ := (mem_stopRows hs).mp hr
    obtain rfl : id' = id := by rw [← hkept.get_eq, ← stopId_of_parseRow hparse, hid]
    exact ⟨r, hkept, hparse⟩
  constructor
  · exact hfound
  · rintro ⟨r, hkept, hparse⟩
    have hmem : v ∈ (placeable file).reverse := by
      rw [List.mem_reverse, placeable, hrows]
      exact List.mem_filterMap.mpr ⟨r, (mem_stopRows hs).mpr ⟨id, hkept⟩, hparse⟩
    have hid : v.stopId = id := (stopId_of_parseRow hparse).trans hkept.get_eq
    cases hlast : lastRow file id with
    | none =>
        rw [lastRow, List.find?_eq_none] at hlast
        exact absurd (decide_eq_true hid) (hlast v hmem)
    | some v' =>
        obtain ⟨r', hkept', hparse'⟩ := hfound hlast
        rw [hkept'.unique hkept, hparse] at hparse'
        rw [hparse']

/-- An import of the rows of the kept stops. -/
theorem holdsStops_of_imported (hs : Selects lower wanted feed s)
    (hrows : readRows file = stopRows order feed s) (h : Imported file table count table') :
    HoldsStops lower wanted feed table table' where
  held := by
    intro key r v hkept hparse
    obtain ⟨key', record, rfl, hrecord⟩ :=
      h.held (some key) v ((lastRow_eq_some hs hrows).mpr ⟨r, hkept, hparse⟩)
    obtain rfl : key' = key :=
      Option.some.inj ((stopId_of_parseRow hparse).trans hkept.get_eq)
    exact ⟨record, rfl, hrecord⟩
  kept := by
    intro key hnone
    apply h.kept
    cases hlast : lastRow file (some key) with
    | none => rfl
    | some v =>
        obtain ⟨r, hkept, hparse⟩ := (lastRow_eq_some hs hrows).mp hlast
        rw [hnone r hkept] at hparse
        cases hparse

/-! ## What is read of a filtered archive -/

theorem stopsTxt_of_member (hshort : ShortMember (some file)) (hmark : ¬ Marked (memberText file))
    (hreturns : ∀ record ∈ file.header :: file.lines, ∀ cell ∈ record, '\r' ∉ cell.toList) :
    stopsTxt (some (memberText file)) = .ok (some file) := by
  have hlined : (file.header :: file.lines).map (·.map lined) = file.header :: file.lines := by
    conv_rhs => rw [← List.map_id (file.header :: file.lines)]
    refine List.map_congr_left fun record hrecord => ?_
    conv_rhs => rw [id_eq, ← List.map_id record]
    exact List.map_congr_left fun cell hcell =>
      lined_of_not_mem (hreturns record hrecord cell hcell)
  have hread : records fieldSizeLimit (universal (memberText file)) =
      .ok (file.header :: file.lines) := by
    rw [memberText, records_universal (hshort file rfl), hlined]
  rw [stopsTxt, decodeSig_of_not_marked hmark, hread]
  rfl

/-- What the script writes has no carriage returns either. -/
theorem noReturns_written (hreturns : NoReturns feed) (hw : Writes order feed s out) :
    NoReturns out.feed := by
  intro file hfile record hrecord cell hcell
  obtain ⟨header, hheader, hstops⟩ := write_eq_ok.mp hw.stops
  cases hmember : feed.stops with
  | none =>
      rw [hmember] at hheader
      cases hheader
  | some original =>
      rw [hmember] at hheader hstops
      cases hheader
      rw [hfile, Option.some.injEq] at hstops
      subst hstops
      have horiginal := hreturns original hmember
      rcases List.mem_cons.mp hrecord with rfl | hrecord
      · exact horiginal _ List.mem_cons_self cell hcell
      · obtain ⟨r, hr, rfl⟩ := List.mem_map.mp hrecord
        obtain ⟨column, -, rfl⟩ := List.mem_map.mp hcell
        obtain ⟨id, -, hstop⟩ := List.mem_filterMap.mp hr
        obtain ⟨line, hline, rfl⟩ := List.mem_map.mp (allStops_mem hstop).1
        cases hvalue : (readRow original.header line).get column with
        | none => simp
        | some value =>
            exact horiginal line (List.mem_cons_of_mem _ (List.mem_of_mem_filter hline)) value
              (get_readRow hvalue)

/-- Importing what the script wrote is importing the rows of the kept stops. -/
theorem importArchive_filtered (hsrc : readFeed src = .ok feed) (hcomplete : Complete feed)
    (hreturns : NoReturns feed)
    (hfiltered : filterArchive lower order agencyMatch src = .ok (dst, patched))
    (hmarks : Unmarked dst) (zipPath : String) (table : ImportStops.Stops) :
    ∃ file s, (read feed.stops).fields = some file.header ∧
      Selects lower (lower agencyMatch) feed s ∧ readRows file = stopRows order feed s ∧
      importArchive zipPath dst table =
        ((importStops zipPath (some file) table).1.mapError .importError,
          (importStops zipPath (some file) table).2) := by
  obtain ⟨feed', out, hfeed, hout, rfl, -⟩ := filterArchive_eq_ok.mp hfiltered
  obtain rfl : feed = feed' := Except.ok.inj (hsrc.symm.trans hfeed)
  obtain ⟨s, hs, hw⟩ := main_eq_ok.mp hout
  obtain ⟨header, hheader, hstops⟩ := write_eq_ok.mp hw.stops
  have hread := read_stops hw hcomplete
  rw [hstops] at hread
  refine ⟨_, s, hheader, hs, congrArg Table.rows hread, ?_⟩
  have hmember : out.feed.stops ∈ out.feed.members := by simp [Feed.members]
  rw [hstops] at hmember
  have htext : stopsTxt (out.feed.archive "stops.txt") = .ok out.feed.stops := by
    change stopsTxt (out.feed.stops.map memberText) = _
    rw [hstops]
    exact stopsTxt_of_member (short_written hsrc hout _ hmember)
      (unmarked_archive.mp hmarks _ hmember _ rfl) (noReturns_written hreturns hw _ hstops)
  rw [importArchive, htext, hstops]

theorem columns_of_importStops (h : (importStops zipPath (some file) table).1 = .ok count) :
    ∀ column ∈ requiredColumns, column ∈ file.header := by
  by_contra hmissing
  push Not at hmissing
  obtain ⟨column, hrequired, hcolumn⟩ := hmissing
  have hne : requiredColumns.filter (· ∉ file.header) ≠ [] :=
    List.ne_nil_of_mem (List.mem_filter.mpr ⟨hrequired, decide_eq_true hcolumn⟩)
  simp only [importStops, readStops, if_pos hne] at h
  cases h

/-- An import goes through exactly where the table takes every last row. -/
theorem importStops_isOk_iff : (∃ count, (importStops zipPath (some file) table).1 = .ok count) ↔
    (∀ column ∈ requiredColumns, column ∈ file.header) ∧
      ∀ id v, lastRow file id = some v → Storable v := by
  constructor
  · rintro ⟨count, h⟩
    have hcolumns := columns_of_importStops h
    refine ⟨hcolumns, fun id v hlast => ?_⟩
    obtain ⟨rows, hrows, -, -⟩ := (importStops_eq_ok hcolumns).mp (Prod.ext h rfl)
    have hmem : v ∈ lastRows (placeable file) := mem_lastRows_placeable.mpr ⟨id, hlast⟩
    rw [hrows] at hmem
    obtain ⟨row, -, rfl⟩ := List.mem_map.mp hmem
    exact storable_iff.mpr ⟨row, accept_eq_ok.mpr rfl⟩
  · rintro ⟨hcolumns, hstorable⟩
    obtain ⟨rows, hrows⟩ : ∃ rows : List (String × StopRecord),
        lastRows (placeable file) = rows.map fun row => row.2.values row.1 := by
      apply exists_rows
      intro v hv
      obtain ⟨id, hlast⟩ := mem_lastRows_placeable.mp hv
      exact storable_iff.mp (hstorable id v hlast)
    refine ⟨rows.length, ?_⟩
    rw [(importStops_eq_ok hcolumns).mpr ⟨rows, hrows, rfl, rfl⟩]

theorem imported_of_importStops (h : importStops zipPath (some file) table = (.ok count, table')) :
    Imported file table count table' := by
  have hcolumns : ∀ column ∈ requiredColumns, column ∈ file.header :=
    columns_of_importStops (congrArg Prod.fst h)
  obtain ⟨rows, hrows, rfl, rfl⟩ := (importStops_eq_ok hcolumns).mp h
  exact imported_of_rows hrows

theorem importStops_isOk_importable (hs : Selects lower wanted feed s)
    (hheader : (read feed.stops).fields = some file.header)
    (hrows : readRows file = stopRows order feed s) :
    (∃ count, (importStops zipPath (some file) table).1 = .ok count) ↔
      Importable lower wanted feed := by
  rw [importStops_isOk_iff]
  constructor
  · rintro ⟨hcolumns, hstorable⟩
    refine ⟨fun header hfields => ?_, fun id r v hkept hparse => ?_⟩
    · obtain rfl : file.header = header := Option.some.inj (hheader.symm.trans hfields)
      exact hcolumns
    · exact hstorable id v ((lastRow_eq_some hs hrows).mpr ⟨r, hkept, hparse⟩)
  · intro himportable
    refine ⟨himportable.columns _ hheader, fun id v hlast => ?_⟩
    obtain ⟨r, hkept, hparse⟩ := (lastRow_eq_some hs hrows).mp hlast
    exact himportable.storable id r v hkept hparse

/-! ### A feed with one stop -/

/-- A tram calls at the Dam, which is part of a station without coordinates. -/
def damFeed : Feed where
  agency := some ⟨["agency_id", "agency_name"], [["GVB", "GVB"]]⟩
  routes := some ⟨["route_id", "agency_id", "route_type"], [["14", "GVB", "0"]]⟩
  trips := some ⟨["route_id", "service_id", "trip_id"], [["14", "week", "tram"]]⟩
  stopTimes := some ⟨["trip_id", "arrival_time", "departure_time", "stop_id"],
    [["tram", "10:00:00", "10:00:00", "dam"]]⟩
  stops := some ⟨["stop_id", "stop_name", "stop_lat", "stop_lon", "parent_station"],
    [["dam", "Dam, tram", "52", "5", "area"], ["area", "Dam", "", "", ""]]⟩
  calendar := none
  calendarDates := none
  shapes := none
  transfers := none
  frequencies := none
  feedInfo := none

theorem damFeed_accepted : Accepted asciiLower (asciiLower "GVB") damFeed := by
  have hmatched : ∀ r ∈ (read damFeed.agency).rows,
      (agencyMatches asciiLower (asciiLower "GVB") r).isOk = true := by decide +kernel
  exact {
    matched := fun r hr => by
      have hok := hmatched r hr
      cases hanswer : agencyMatches asciiLower (asciiLower "GVB") r with
      | ok answer => exact ⟨answer, rfl⟩
      | error e =>
          rw [hanswer] at hok
          cases hok
    found := by decide +kernel
    agencyColumn := by decide +kernel
    routeColumn := by decide +kernel
    tripColumn := by decide +kernel
    stopColumn := by decide +kernel
    members := by decide +kernel }

theorem readFeed_damFeed : readFeed damFeed.archive = .ok damFeed := by
  rw [readFeed_archive_iff]
  decide +kernel

theorem damFeed_complete : Complete damFeed := by
  simp [Complete, Feed.members, damFeed]

theorem damFeed_noReturns : NoReturns damFeed := by
  rintro file ⟨⟩
  decide +kernel

theorem exists_filtered_damFeed : ∃ dst patched,
    filterArchive asciiLower someOrder "GVB" damFeed.archive = .ok (dst, patched) ∧
      Unmarked dst := by
  obtain ⟨out, hout⟩ : ∃ out, main asciiLower someOrder "GVB" damFeed = .ok out :=
    main_isOk_iff.mpr damFeed_accepted
  refine ⟨_, _, filterArchive_eq_ok.mpr ⟨_, out, readFeed_damFeed, hout, rfl, rfl⟩, ?_⟩
  apply unmarked_main _ hout
  simp [Feed.members, damFeed, MarkedHeader, Marked]

theorem KeptStop.mem (h : KeptStop lower wanted feed id r) : r ∈ (read feed.stops).rows :=
  (allStops_mem (allStops_eq_some_iff.mpr h.1)).1

theorem damFeed_importable : Importable asciiLower (asciiLower "GVB") damFeed := by
  have hstorable : ∀ r ∈ (read damFeed.stops).rows, ∀ v ∈ parseRow r, Storable v := by
    decide +kernel
  refine ⟨?_, fun id r v hkept hparse => hstorable r hkept.mem v hparse⟩
  rintro header ⟨⟩
  decide +kernel

/-- **The feed of an operator reaches the table.**  Importing what the script wrote goes through
    exactly where the table has the columns and takes every kept stop that can be placed; then
    it holds these stops, with the values of their rows in the national feed, and every other
    row is as before.  A failed import changes nothing. -/
theorem filtered_stops_imported (hsrc : readFeed src = .ok feed) (hcomplete : Complete feed)
    (hreturns : NoReturns feed)
    (hfiltered : filterArchive lower order agencyMatch src = .ok (dst, patched))
    (hmarks : Unmarked dst) (zipPath : String) (table : ImportStops.Stops) :
    ((∃ count, (importArchive zipPath dst table).1 = .ok count) ↔
      Importable lower (lower agencyMatch) feed) ∧
    (Importable lower (lower agencyMatch) feed →
      HoldsStops lower (lower agencyMatch) feed table (importArchive zipPath dst table).2) ∧
    (¬ Importable lower (lower agencyMatch) feed →
      (importArchive zipPath dst table).2 = table) := by
  obtain ⟨file, s, hheader, hs, hrows, himport⟩ :=
    importArchive_filtered hsrc hcomplete hreturns hfiltered hmarks zipPath table
  have hok : (∃ count, (importStops zipPath (some file) table).1 = .ok count) ↔
      Importable lower (lower agencyMatch) feed := importStops_isOk_importable hs hheader hrows
  rw [himport]
  simp only [mapError_eq_ok]
  refine ⟨hok, fun himportable => ?_, fun hrefused => ?_⟩
  · obtain ⟨count, hcount⟩ := hok.mpr himportable
    have himported := imported_of_importStops (Prod.ext hcount rfl)
    exact holdsStops_of_imported hs hrows himported
  · cases hresult : (importStops zipPath (some file) table).1 with
    | error e => exact table_of_error hresult
    | ok count => exact absurd (hok.mp ⟨count, hresult⟩) hrefused

theorem filtered_stops_imported_dam : ∃ dst patched count,
    filterArchive asciiLower someOrder "GVB" damFeed.archive = .ok (dst, patched) ∧
      (importArchive "gtfs-gvb.zip" dst fun _ => none).1 = .ok count ∧
      HoldsStops asciiLower (asciiLower "GVB") damFeed (fun _ => none)
        (importArchive "gtfs-gvb.zip" dst fun _ => none).2 := by
  obtain ⟨dst, patched, hfiltered, hmarks⟩ := exists_filtered_damFeed
  obtain ⟨hok, hholds, -⟩ := filtered_stops_imported readFeed_damFeed damFeed_complete
    damFeed_noReturns hfiltered hmarks "gtfs-gvb.zip" fun _ => none
  obtain ⟨count, hcount⟩ := hok.mpr damFeed_importable
  exact ⟨dst, patched, count, hfiltered, hcount, hholds damFeed_importable⟩

/-! ## Serving the stops -/

/-- A row of the table as `nearby_stops` selects it. -/
noncomputable def ImportStops.StopRecord.stop (record : StopRecord) (stopId : String)
    (lat lon : ℚ) : Stop where
  stopId := stopId
  code := record.code
  name := record.name
  lat := lat
  lon := lon
  locationType := record.locationType.1
  parentStation := record.parentStation
  platformCode := record.platformCode
  zoneId := record.zoneId

/-- The record is that of the stop, and has its coordinates. -/
def Places (record : StopRecord) (stop : Stop) : Prop :=
  ∃ lat lon, record.lat.value = some lat ∧ record.lon.value = some lon ∧
    stop = record.stop stop.stopId lat lon

/-- What can be selected of a table: the rows whose coordinates are numbers.  No box has the
    others. -/
def Shows (table : StopsTable) (stops : ImportStops.Stops) : Prop :=
  ∀ stop, stop ∈ table.rows ↔ ∃ record, stops stop.stopId = some record ∧ Places record stop

section Served

variable (lower : String → String) (wanted : String) (feed : Feed)

/-- A stop of the operator, with the values of its row in the feed. -/
def OperatorStop (stop : Stop) : Prop :=
  ∃ r record, KeptStop lower wanted feed (some stop.stopId) r ∧
    parseRow r = some (record.values stop.stopId) ∧ Places record stop

/-- The answer has the nearest of the operator's stops within the radius, each once. -/
structure ServesNearest (q : StopsQuery) (answer : List (Stop × ℝ)) : Prop where
  sound : ∀ pair ∈ answer, OperatorStop lower wanted feed pair.1 ∧
    pair.2 = haversineM q.lat q.lon pair.1.lat pair.1.lon ∧ pair.2 ≤ q.radius
  once : (answer.map (·.1.stopId)).Nodup
  sorted : answer.Pairwise fun pair pair' => pair.2 ≤ pair'.2
  complete : ∀ stop, OperatorStop lower wanted feed stop →
    haversineM q.lat q.lon stop.lat stop.lon ≤ q.radius →
      stop ∈ answer.map Prod.fst ∨ answer.length = defaultLimit ∧
        ∀ pair ∈ answer, pair.2 ≤ haversineM q.lat q.lon stop.lat stop.lon

end Served

variable {stopsTable : StopsTable} {execute : BoundingBox → List Stop} {q : StopsQuery}

/-- After an import into an empty table its rows are the operator's stops. -/
theorem exists_record_iff (hholds : HoldsStops lower wanted feed (fun _ => none) table)
    {stop : Stop} :
    (∃ record, table stop.stopId = some record ∧ Places record stop) ↔
      OperatorStop lower wanted feed stop := by
  constructor
  · rintro ⟨record, hrecord, hplaces⟩
    have hplaced : ¬ ∀ r, KeptStop lower wanted feed (some stop.stopId) r → parseRow r = none := by
      intro hnone
      rw [hholds.kept stop.stopId hnone] at hrecord
      cases hrecord
    push Not at hplaced
    obtain ⟨r, hkept, hparse⟩ := hplaced
    obtain ⟨v, hv⟩ := Option.ne_none_iff_exists'.mp hparse
    obtain ⟨record', rfl, hrecord'⟩ := hholds.held stop.stopId r v hkept hv
    obtain rfl : record' = record := Option.some.inj (hrecord'.symm.trans hrecord)
    exact ⟨r, record', hkept, hv, hplaces⟩
  · rintro ⟨r, record, hkept, hparse, hplaces⟩
    obtain ⟨record', hvalues, hrecord⟩ := hholds.held stop.stopId r _ hkept hparse
    refine ⟨record', hrecord, ?_⟩
    have hsame := accept_eq_ok.mpr hvalues
    rw [accept_eq_ok.mpr rfl] at hsame
    cases hsame
    exact hplaces

/-- The answer to a query, from the rows of the table. -/
theorem getStops_nearest (hexecute : ∀ box, (execute box).Perm (stopsTable.select box))
    (htable : ∀ stop ∈ stopsTable.rows, |stop.lat| ≤ 80 ∧ |stop.lon| ≤ 170)
    (hrows : ∀ stop, stop ∈ stopsTable.rows ↔ OperatorStop lower wanted feed stop) :
    ServesNearest lower wanted feed q (getStops execute q) := by
  have hbox : ∀ stop ∈ stopsTable.rows, haversineM q.lat q.lon stop.lat stop.lon ≤ q.radius →
      (boundingBox q.lat q.lon q.radius).contains stop.lat stop.lon := by
    intro stop hstop hrange
    have hradius : (1 : ℝ) ≤ q.radius := by exact_mod_cast q.radius_ge
    have hradius' : (q.radius : ℝ) ≤ 5000 := by exact_mod_cast q.radius_le
    exact contains_of_haversineM_le (abs_le.mpr ⟨q.lat_ge, q.lat_le⟩)
      (abs_le.mpr ⟨q.lon_ge, q.lon_le⟩) (htable stop hstop).1 (htable stop hstop).2
      (zero_lt_one.trans_le hradius) hradius' hrange
  have hwithin := within_perm hexecute hbox
  have hranked : ∀ {stop}, stop ∈ (within execute q.lat q.lon q.radius).map Prod.fst →
      stop ∈ stopsTable.rows := by
    intro stop hstop
    exact List.mem_of_mem_filter (hwithin.mem_iff.mp hstop)
  refine ⟨?_, ?_, ?_, ?_⟩
  · intro pair hpair
    have hpair' : pair ∈ within execute q.lat q.lon q.radius := List.mem_of_mem_take hpair
    obtain ⟨-, hdistance, hradius⟩ := mem_within.mp hpair'
    exact ⟨(hrows _).mp (hranked (List.mem_map_of_mem hpair')), hdistance, hradius⟩
  · exact (within_nodup hwithin).sublist ((List.take_sublist _ _).map _)
  · exact within_sorted.sublist (List.take_sublist _ _)
  · intro stop hstop hrange
    have hrow := (hrows stop).mpr hstop
    by_cases hreturned : stop ∈ (getStops execute q).map Prod.fst
    · exact Or.inl hreturned
    · refine Or.inr ⟨?_, fun pair hpair => le_of_not_returned hwithin hrow hreturned hpair⟩
      have hmem : stop ∈ (within execute q.lat q.lon q.radius).map Prod.fst :=
        hwithin.mem_iff.mpr (List.mem_filter.mpr ⟨hrow, decide_eq_true hrange⟩)
      by_contra hshort
      apply hreturned
      have hlength : (getStops execute q).length ≤ defaultLimit := List.length_take_le _ _
      rw [getStops, nearbyStops, List.length_take] at hshort hlength
      rw [getStops, nearbyStops, List.take_of_length_le (by omega)]
      exact hmem

/-- The row of the one stop of the feed that can be placed. -/
def tramRecord : StopRecord where
  code := none
  name := "Dam, tram"
  lat := .finite false 52
  lon := .finite false 5
  locationType := ⟨0, by decide⟩
  parentStation := some "area"
  platformCode := none
  zoneId := none

noncomputable def tramTable : StopsTable where
  rows := [tramRecord.stop "dam" 52 5]
  keyed := List.nodup_singleton _

theorem operatorStop_damFeed {stop : Stop} :
    OperatorStop asciiLower (asciiLower "GVB") damFeed stop ↔ stop ∈ tramTable.rows := by
  have hparsed : ∀ r ∈ (read damFeed.stops).rows, ∀ v ∈ parseRow r,
      v = tramRecord.values "dam" := by decide +kernel
  rw [tramTable, List.mem_singleton]
  constructor
  · rintro ⟨r, record, hkept, hparse, lat, lon, hlat, hlon, hstop⟩
    have hvalues := accept_eq_ok.mpr (hparsed r hkept.mem _ hparse)
    rw [accept_eq_ok.mpr rfl, Except.ok.injEq, Prod.mk.injEq] at hvalues
    obtain ⟨hid, rfl⟩ := hvalues
    cases hlat
    cases hlon
    rw [hstop, hid]
    simp
  · rintro rfl
    have hrow : (allStops (read damFeed.stops).rows (some "dam")).bind parseRow =
        some (tramRecord.values "dam") := by decide +kernel
    have hcalls : some "dam" ∈ ((keptStopTimes asciiLower (asciiLower "GVB") damFeed).map
        (·.get "stop_id")).toFinset := by decide +kernel
    obtain ⟨r, hstop, hparse⟩ := Option.bind_eq_some_iff.mp hrow
    exact ⟨r, tramRecord, ⟨allStops_eq_some_iff.mp hstop, .start hcalls⟩, hparse, 52, 5, rfl, rfl,
      rfl⟩

/-- **From the national feed to an answer.**  When the script has filtered a feed and its
    stops.txt was imported into an empty table, `GET /v1/stops` answers with the nearest stops
    of the operator within the radius, no other stops, and leaves none out but for the limit. -/
theorem national_stops_served (hsrc : readFeed src = .ok feed) (hcomplete : Complete feed)
    (hreturns : NoReturns feed)
    (hfiltered : filterArchive lower order agencyMatch src = .ok (dst, patched))
    (hmarks : Unmarked dst)
    (himport : importArchive zipPath dst (fun _ => none) = (.ok count, table))
    (hshows : Shows stopsTable table)
    (hexecute : ∀ box, (execute box).Perm (stopsTable.select box))
    (htable : ∀ stop ∈ stopsTable.rows, |stop.lat| ≤ 80 ∧ |stop.lon| ≤ 170) (q : StopsQuery) :
    ServesNearest lower (lower agencyMatch) feed q (getStops execute q) := by
  obtain ⟨file, s, -, hs, hrows, hfile⟩ :=
    importArchive_filtered hsrc hcomplete hreturns hfiltered hmarks zipPath fun _ => none
  rw [himport, Prod.mk.injEq, eq_comm, mapError_eq_ok] at hfile
  obtain ⟨hcount, rfl⟩ := hfile
  have hholds : HoldsStops lower (lower agencyMatch) feed (fun _ => none)
      (importStops zipPath (some file) fun _ => none).2 :=
    holdsStops_of_imported hs hrows (imported_of_importStops (Prod.ext hcount rfl))
  exact getStops_nearest hexecute htable fun stop => (hshows stop).trans (exists_record_iff hholds)

theorem national_stops_served_dam :
    ∃ (dst : Archive) (patched count : Nat) (stops : ImportStops.Stops) (q : StopsQuery),
      filterArchive asciiLower someOrder "GVB" damFeed.archive = .ok (dst, patched) ∧
        importArchive "gtfs-gvb.zip" dst (fun _ => none) = (.ok count, stops) ∧
        ServesNearest asciiLower (asciiLower "GVB") damFeed q (getStops tramTable.select q) := by
  obtain ⟨dst, patched, hfiltered, hmarks⟩ := exists_filtered_damFeed
  obtain ⟨file, s, hheader, hs, hrows, himport⟩ := importArchive_filtered readFeed_damFeed
    damFeed_complete damFeed_noReturns hfiltered hmarks "gtfs-gvb.zip" fun _ => none
  obtain ⟨count, hcount⟩ : ∃ count,
      (importStops "gtfs-gvb.zip" (some file) fun _ => none).1 = .ok count :=
    (importStops_isOk_importable hs hheader hrows).mpr damFeed_importable
  rw [hcount] at himport
  have hshows : Shows tramTable (importStops "gtfs-gvb.zip" (some file) fun _ => none).2 := by
    intro stop
    rw [← operatorStop_damFeed, exists_record_iff]
    exact holdsStops_of_imported hs hrows (imported_of_importStops (Prod.ext hcount rfl))
  let q : StopsQuery :=
    ⟨52, 5, 500, by norm_num, by norm_num, by norm_num, by norm_num, by decide, by decide⟩
  refine ⟨dst, patched, count, _, q, hfiltered, himport, ?_⟩
  refine national_stops_served readFeed_damFeed damFeed_complete damFeed_noReturns hfiltered hmarks
    himport hshows (fun box => List.Perm.refl _) ?_ q
  intro stop hstop
  rw [List.mem_singleton.mp hstop]
  norm_num [StopRecord.stop, abs_of_pos]

end FietsOfOv
