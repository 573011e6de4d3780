import FietsOfOv.Lib.Binary64
import FietsOfOv.Lib.Csv
import FietsOfOv.Lib.Dict
import FietsOfOv.Lib.Upsert

/-!
# Importing stops

`app/db/import_stops.py`: the rows of a feed's `stops.txt` go into the `stops` table, the
last row of each `stop_id` in a single statement.  The script checks coordinates and
numbers, the columns of the table check what is left.
-/

namespace FietsOfOv.ImportStops

open Binary64 Csv

/-! ## The table -/

/-- An integer column. -/
abbrev Int4 := {n : Int // -2 ^ 31 ≤ n ∧ n < 2 ^ 31}

/-- A row of the `stops` table besides its key; what is not optional is `NOT NULL`. -/
structure StopRecord where
  code : Option String
  name : String
  lat : Double
  lon : Double
  locationType : Int4
  parentStation : Option String
  platformCode : Option String
  zoneId : Option String
deriving DecidableEq

/-- The `stops` table by its primary key, `stop_id`. -/
abbrev Stops := String → Option StopRecord

/-- The dict that `_parse_row` makes of a row. -/
structure StopValues where
  stopId : Option String
  code : Option String
  name : Option String
  lat : Double
  lon : Double
  locationType : Int
  parentStation : Option String
  platformCode : Option String
  zoneId : Option String
deriving DecidableEq

/-- What the database can refuse. -/
inductive DbError where
  | notNullViolation (column : String)
  | outOfRange (column : String)
  /-- The statement would touch a row twice. -/
  | cardinalityViolation
deriving DecidableEq

/-- Values become a row if the columns accept them. -/
def accept (v : StopValues) : Except DbError (String × StopRecord) :=
  if h : -2 ^ 31 ≤ v.locationType ∧ v.locationType < 2 ^ 31 then
    match v.stopId, v.name with
    | none, _ => .error (.notNullViolation "stop_id")
    | some _, none => .error (.notNullViolation "name")
    | some stopId, some name =>
        .ok (stopId, {
          code := v.code, name, lat := v.lat, lon := v.lon, locationType := ⟨v.locationType, h⟩,
          parentStation := v.parentStation, platformCode := v.platformCode, zoneId := v.zoneId })
  else .error (.outOfRange "location_type")

/-- `set_`: the columns of `_UPDATABLE` are those of the excluded row. -/
def setUpdatable (old excluded : StopRecord) : StopRecord :=
  { old with
    code := excluded.code
    name := excluded.name
    lat := excluded.lat
    lon := excluded.lon
    locationType := excluded.locationType
    parentStation := excluded.parentStation
    platformCode := excluded.platformCode
    zoneId := excluded.zoneId }

/-- `insert(Stop).values(rows)` with its `on_conflict_do_update`. -/
def insertStops : Upsert.Statement StopValues String StopRecord DbError where
  accept := accept
  merge := setUpdatable
  twice := .cardinalityViolation

/-! ## The script -/

/-- What `import_stops` can raise. -/
inductive ImportError where
  | noStopsTxt (zipPath : String)
  | missingColumns (columns : List String)
  | database (error : DbError)
deriving DecidableEq

/-- `_REQUIRED_COLUMNS`, sorted. -/
def requiredColumns : List String := ["stop_id", "stop_lat", "stop_lon", "stop_name"]

/-- `(row.get(column) or "").strip()`. -/
def stripped (row : Row) (column : String) : List Char :=
  Text.strip ((row.get column).getD "").toList

/-- `row.get(column) or None`. -/
def orNone (row : Row) (column : String) : Option String := (row.get column).filter (· ≠ "")

/-- `_parse_row`, on a row that has the required columns. -/
def parseRow (row : Row) : Option StopValues :=
  let lat := stripped row "stop_lat"
  let lon := stripped row "stop_lon"
  if lat = [] ∨ lon = [] then none
  else do
    let latF ← float lat
    let lonF ← float lon
    let locRaw := stripped row "location_type"
    let locationType ← if locRaw = [] then some 0 else Text.int locRaw
    return {
      stopId := row.get "stop_id", code := orNone row "stop_code", name := row.get "stop_name",
      lat := latF, lon := lonF, locationType, parentStation := orNone row "parent_station",
      platformCode := orNone row "platform_code", zoneId := orNone row "zone_id" }

/-- The rows that can be placed. -/
def placeable (file : File) : List StopValues := (readRows file).filterMap parseRow

/-- `_read_stops`; the archive may have no `stops.txt`. -/
def readStops (zipPath : String) : Option File → Except ImportError (List StopValues)
  | none => .error (.noStopsTxt zipPath)
  | some file =>
      let missing := requiredColumns.filter (· ∉ file.header)
      if missing ≠ [] then .error (.missingColumns missing) else .ok (placeable file)

/-- `rows`: the values by their `stop_id`. -/
def lastRows (values : List StopValues) : List StopValues :=
  (Dict.collect (·.stopId) values).map (·.2)

/-- `import_stops`, and the table it leaves. -/
def importStops (zipPath : String) (stopsTxt : Option File) (table : Stops) :
    Except ImportError Nat × Stops :=
  match readStops zipPath stopsTxt with
  | .error e => (.error e, table)
  | .ok values =>
      let rows := lastRows values
      if rows = [] then (.ok 0, table)
      else
        match Upsert.execute insertStops rows table with
        | .error e => (.error (.database e), table)
        | .ok table' => (.ok rows.length, table')

/-! ## What an import should do -/

/-- The last placeable row with an id, or without one. -/
def lastRow (file : File) (stopId : Option String) : Option StopValues :=
  (placeable file).reverse.find? (·.stopId = stopId)

/-- The values that a row of the table has. -/
def StopRecord.values (stopId : String) (record : StopRecord) : StopValues where
  stopId := some stopId
  code := record.code
  name := some record.name
  lat := record.lat
  lon := record.lon
  locationType := record.locationType
  parentStation := record.parentStation
  platformCode := record.platformCode
  zoneId := record.zoneId

/-- A table after an import: the last rows are in it, the other rows are as before. -/
structure Imported (file : File) (table : Stops) (count : Nat) (table' : Stops) : Prop where
  held : ∀ stopId v, lastRow file stopId = some v →
    ∃ key record, v = record.values key ∧ table' key = some record
  kept : ∀ key, lastRow file (some key) = none → table' key = table key
  counted : count = ((placeable file).map (·.stopId)).dedup.length

/-- The import succeeds, and a second one changes nothing. -/
def UpsertsLast (zipPath : String) (file : File) (table : Stops) : Prop :=
  ∃ count table', importStops zipPath (some file) table = (.ok count, table') ∧
    Imported file table count table' ∧
    importStops zipPath (some file) table' = (.ok count, table')

/-- The columns of the table accept the values. -/
structure Storable (v : StopValues) : Prop where
  stopId : v.stopId ≠ none
  name : v.name ≠ none
  locationType : -2 ^ 31 ≤ v.locationType ∧ v.locationType < 2 ^ 31

variable {zipPath : String} {stopsTxt : Option File} {file : File} {table table' : Stops}
  {values : List StopValues} {v : StopValues} {stopId : Option String} {key : String}
  {record : StopRecord} {rows : List (String × StopRecord)} {count : Nat}

/-! ## What the table accepts -/

theorem setUpdatable_eq (old excluded : StopRecord) : setUpdatable old excluded = excluded := rfl

theorem accept_eq_ok : accept v = .ok (key, record) ↔ v = record.values key := by
  constructor
  · intro h
    rw [accept] at h
    split at h
    · obtain ⟨id, code, name, lat, lon, locationType, parentStation, platformCode, zoneId⟩ := v
      cases id with
      | none => cases h
      | some id =>
          cases name with
          | none => cases h
          | some name =>
              cases h
              rfl
    · cases h
  · rintro rfl
    rw [accept]
    split
    · rfl
    · rename_i hrange
      exact absurd record.locationType.2 hrange

theorem storable_iff : Storable v ↔ ∃ row, accept v = .ok row := by
  constructor
  · rintro ⟨hid, hname, hrange⟩
    obtain ⟨id, code, label, lat, lon, locationType, parentStation, platformCode, zoneId⟩ := v
    obtain ⟨key, rfl⟩ : ∃ key, id = some key := Option.ne_none_iff_exists'.mp hid
    obtain ⟨name, rfl⟩ : ∃ name, label = some name := Option.ne_none_iff_exists'.mp hname
    exact ⟨(key, ⟨code, name, lat, lon, ⟨locationType, hrange⟩, parentStation, platformCode,
      zoneId⟩), accept_eq_ok.mpr rfl⟩
  · rintro ⟨⟨key, record⟩, hrow⟩
    obtain rfl := accept_eq_ok.mp hrow
    exact ⟨Option.some_ne_none _, Option.some_ne_none _, record.locationType.2⟩

/-! ## The rows of the statement -/

theorem mem_lastRows :
    v ∈ lastRows values ↔ values.reverse.find? (·.stopId = v.stopId) = some v := by
  rw [lastRows, List.mem_map]
  constructor
  · rintro ⟨⟨stopId, v⟩, hentry, rfl⟩
    have hfind := Dict.mem_collect.mp hentry
    obtain rfl : v.stopId = stopId := by simpa using List.find?_some hfind
    exact hfind
  · exact fun hfind => ⟨(v.stopId, v), Dict.mem_collect.mpr hfind, rfl⟩

theorem mem_lastRows_placeable :
    v ∈ lastRows (placeable file) ↔ ∃ stopId, lastRow file stopId = some v := by
  rw [mem_lastRows]
  constructor
  · exact fun hfind => ⟨v.stopId, hfind⟩
  · rintro ⟨stopId, hlast⟩
    obtain rfl : v.stopId = stopId := by simpa using List.find?_some hlast
    exact hlast

theorem nodup_lastRows (values : List StopValues) :
    ((lastRows values).map (·.stopId)).Nodup := by
  have hkeys : (lastRows values).map (·.stopId) =
      (Dict.collect (·.stopId) values).map (·.1) := by
    rw [lastRows, List.map_map]
    refine List.map_congr_left fun entry hentry => ?_
    simpa using List.find?_some (Dict.mem_collect.mp hentry)
  rw [hkeys]
  exact Dict.unique_collect _ _

theorem length_lastRows (values : List StopValues) :
    (lastRows values).length = (values.map (·.stopId)).dedup.length := by
  rw [lastRows, List.length_map, Dict.length_collect]

/-- The keys of rows that make the values of the statement. -/
theorem nodup_keys (hrows : lastRows values = rows.map fun row => row.2.values row.1) :
    (rows.map (·.1)).Nodup := by
  have hnodup := nodup_lastRows values
  rw [hrows, List.map_map] at hnodup
  have hsome : (rows.map (·.1)).map some =
      rows.map ((·.stopId) ∘ fun row => row.2.values row.1) := by
    rw [List.map_map]
    rfl
  rw [← hsome] at hnodup
  exact hnodup.of_map _

theorem forall₂_accept : List.Forall₂ (fun v row => accept v = .ok row) values rows ↔
    values = rows.map fun row => row.2.values row.1 := by
  rw [← List.forall₂_eq_eq_eq, List.forall₂_map_right_iff]
  exact ⟨.imp fun v row => accept_eq_ok.mp, .imp fun v row => accept_eq_ok.mpr⟩

theorem exists_rows (haccept : ∀ v ∈ values, ∃ row, accept v = .ok row) :
    ∃ rows : List (String × StopRecord), values = rows.map fun row => row.2.values row.1 := by
  obtain ⟨rows, hrows⟩ := Loop.mapM_isOk.mpr haccept
  exact ⟨rows, forall₂_accept.mp (Loop.mapM_eq_ok.mp hrows)⟩

theorem execute_eq_ok : Upsert.execute insertStops (lastRows values) table = .ok table' ↔
    ∃ rows, lastRows values = rows.map (fun row => row.2.values row.1) ∧
      table' = Upsert.putAll setUpdatable rows table := by
  rw [Upsert.execute_eq_ok]
  constructor
  · rintro ⟨rows, hrows, -, htable⟩
    exact ⟨rows, forall₂_accept.mp hrows, htable⟩
  · rintro ⟨rows, hrows, htable⟩
    exact ⟨rows, forall₂_accept.mpr hrows, nodup_keys hrows, htable⟩

/-! ## The import -/

/-- A failed import leaves the table as it was. -/
theorem table_of_error {e : ImportError} (h : (importStops zipPath stopsTxt table).1 = .error e) :
    (importStops zipPath stopsTxt table).2 = table := by
  rw [importStops] at h ⊢
  split
  · rfl
  · rename_i hread
    rw [hread] at h
    simp only at h ⊢
    split
    · rfl
    · rename_i hrows
      rw [if_neg hrows] at h
      split
      · rfl
      · rename_i hexecute
        rw [hexecute] at h
        cases h

theorem readStops_eq (hcolumns : ∀ column ∈ requiredColumns, column ∈ file.header) :
    readStops zipPath (some file) = .ok (placeable file) := by
  have hmissing : requiredColumns.filter (· ∉ file.header) = [] := by
    rw [List.filter_eq_nil_iff]
    intro column hcolumn
    simpa using hcolumns column hcolumn
  rw [readStops, hmissing]
  rfl

/-- An import succeeds if every last row is the values of a row of the table. -/
theorem importStops_eq_ok (hcolumns : ∀ column ∈ requiredColumns, column ∈ file.header) :
    importStops zipPath (some file) table = (.ok count, table') ↔
      ∃ rows, lastRows (placeable file) = rows.map (fun row => row.2.values row.1) ∧
        table' = Upsert.putAll setUpdatable rows table ∧ count = rows.length := by
  have hexecute : ∀ rows : List (String × StopRecord),
      lastRows (placeable file) = rows.map (fun row => row.2.values row.1) →
      Upsert.execute insertStops (lastRows (placeable file)) table =
        .ok (Upsert.putAll setUpdatable rows table) :=
    fun rows hrows => execute_eq_ok.mpr ⟨rows, hrows, rfl⟩
  rw [importStops, readStops_eq hcolumns]
  simp only
  split
  · rename_i hempty
    rw [hempty]
    constructor
    · intro h
      cases h
      exact ⟨[], rfl, rfl, rfl⟩
    · rintro ⟨rows, hrows, rfl, rfl⟩
      obtain rfl := List.map_eq_nil_iff.mp hrows.symm
      rfl
  · cases hresult : Upsert.execute insertStops (lastRows (placeable file)) table with
    | error e =>
        constructor
        · intro h
          cases h
        · rintro ⟨rows, hrows, -⟩
          cases hresult.symm.trans (hexecute rows hrows)
    | ok result =>
        obtain ⟨rows, hrows, rfl⟩ := execute_eq_ok.mp hresult
        have hlength : (lastRows (placeable file)).length = rows.length := by
          rw [hrows, List.length_map]
        constructor
        · intro h
          cases h
          exact ⟨rows, hrows, rfl, hlength⟩
        · rintro ⟨rows', hrows', rfl, rfl⟩
          have hsame := hresult.symm.trans (hexecute rows' hrows')
          rw [Except.ok.inj hsame, hrows', List.length_map]

/-- An import of rows that the table accepts, and what it holds then. -/
theorem imported_of_rows
    (hrows : lastRows (placeable file) = rows.map fun row => row.2.values row.1) :
    Imported file table rows.length (Upsert.putAll setUpdatable rows table) where
  held := by
    intro stopId v hlast
    have hmem : v ∈ lastRows (placeable file) := mem_lastRows_placeable.mpr ⟨stopId, hlast⟩
    rw [hrows] at hmem
    obtain ⟨⟨key, record⟩, hrow, rfl⟩ := List.mem_map.mp hmem
    refine ⟨key, record, rfl, ?_⟩
    rw [Upsert.putAll_of_mem (nodup_keys hrows) hrow]
    cases table key <;> rfl
  kept := by
    intro key hnone
    apply Upsert.putAll_of_not_mem
    intro hkey
    obtain ⟨row, hrow, rfl⟩ := List.mem_map.mp hkey
    have hmem : row.2.values row.1 ∈ lastRows (placeable file) := by
      rw [hrows]
      exact List.mem_map_of_mem hrow
    have hlast := mem_lastRows.mp hmem
    rw [lastRow] at hnone
    cases hnone.symm.trans hlast
  counted := by
    rw [← length_lastRows, hrows, List.length_map]

theorem UpsertsLast.storable (hcolumns : ∀ column ∈ requiredColumns, column ∈ file.header)
    (h : UpsertsLast zipPath file table) (hlast : lastRow file stopId = some v) : Storable v := by
  obtain ⟨count, table', hfirst, -, -⟩ := h
  obtain ⟨rows, hrows, -, -⟩ := (importStops_eq_ok hcolumns).mp hfirst
  have hmem : v ∈ lastRows (placeable file) := mem_lastRows_placeable.mpr ⟨stopId, hlast⟩
  rw [hrows] at hmem
  obtain ⟨row, -, rfl⟩ := List.mem_map.mp hmem
  exact storable_iff.mpr ⟨row, accept_eq_ok.mpr rfl⟩

theorem upsertsLast_of_storable (hcolumns : ∀ column ∈ requiredColumns, column ∈ file.header)
    (hstorable : ∀ stopId v, lastRow file stopId = some v → Storable v) :
    UpsertsLast zipPath file table := by
  have haccept : ∀ v ∈ lastRows (placeable file), ∃ row, accept v = .ok row := by
    intro v hv
    obtain ⟨stopId, hlast⟩ := mem_lastRows_placeable.mp hv
    exact storable_iff.mp (hstorable stopId v hlast)
  obtain ⟨rows, hrows⟩ := exists_rows haccept
  refine ⟨rows.length, Upsert.putAll setUpdatable rows table, ?_, imported_of_rows hrows, ?_⟩
  · exact (importStops_eq_ok hcolumns).mpr ⟨rows, hrows, rfl, rfl⟩
  · refine (importStops_eq_ok hcolumns).mpr ⟨rows, hrows, ?_, rfl⟩
    exact (Upsert.putAll_again setUpdatable_eq (nodup_keys hrows)).symm

/-- **The import upserts the last rows** if the table accepts every one of them; otherwise it
    fails. -/
theorem import_upserts_last_iff (zipPath : String) (file : File) (table : Stops)
    (hcolumns : ∀ column ∈ requiredColumns, column ∈ file.header) :
    UpsertsLast zipPath file table ↔
      ∀ stopId v, lastRow file stopId = some v → Storable v :=
  ⟨fun h _ _ hlast => h.storable hcolumns hlast, upsertsLast_of_storable hcolumns⟩

/-! ### A feed with a short row -/

/-- Three rows of two stops; the last one of Dam is cut short, or all are complete. -/
def shortRow (last : List String) : File where
  header := ["stop_id", "stop_lat", "stop_lon", "stop_name", "location_type"]
  lines := [["centraal", "52.3791", "4.9003", "Centraal", "1"],
    ["dam", "52.3731", "4.8926", "Dam", ""], ["dam", "abc", "4.8926", "Dam", ""], last]

instance (v : StopValues) : Decidable (Storable v) :=
  decidable_of_iff
    (v.stopId ≠ none ∧ v.name ≠ none ∧ -2 ^ 31 ≤ v.locationType ∧ v.locationType < 2 ^ 31)
    ⟨fun h => ⟨h.1, h.2.1, h.2.2⟩, fun h => ⟨h.stopId, h.name, h.locationType⟩⟩

theorem shortRow_columns (last : List String) :
    ∀ column ∈ requiredColumns, column ∈ (shortRow last).header := by
  simp [requiredColumns, shortRow]

/-- The last row is complete. -/
theorem import_upserts_last_iff_shortRow :
    UpsertsLast "gtfs-gvb.zip" (shortRow ["dam", "52.3731", "4.8926", "Dam", "0"])
      fun _ => none := by
  refine (import_upserts_last_iff _ _ _ (shortRow_columns _)).mpr ?_
  have hstorable : ∀ v ∈ placeable (shortRow ["dam", "52.3731", "4.8926", "Dam", "0"]),
      Storable v := by decide +kernel
  intro stopId v hlast
  exact hstorable v (List.mem_reverse.mp (List.mem_of_find?_eq_some hlast))

/-- The last row ends before the name. -/
theorem short_row_aborts_import :
    ¬ ∀ (zipPath : String) (file : File) (table : Stops),
        (∀ column ∈ requiredColumns, column ∈ file.header) → UpsertsLast zipPath file table := by
  intro hall
  have hupserts := hall "gtfs-gvb.zip" (shortRow ["dam", "52.3731", "4.8926"]) (fun _ => none)
    (shortRow_columns _)
  have hnameless : ∃ v, lastRow (shortRow ["dam", "52.3731", "4.8926"]) (some "dam") = some v ∧
      v.name = none := by
    have hlast : ((lastRow (shortRow ["dam", "52.3731", "4.8926"]) (some "dam")).map
        (·.name)) = some none := by decide +kernel
    simpa using hlast
  obtain ⟨v, hlast, hname⟩ := hnameless
  exact (hupserts.storable (shortRow_columns _) hlast).name hname

end FietsOfOv.ImportStops
