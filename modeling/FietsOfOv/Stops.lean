import FietsOfOv.Geo
import Mathlib.Data.List.Sort

/-!
# Stops near a point

`app/services/stops.py` and the query of `app/api/stops.py`: the box narrows the table to
candidates, the distance trims and ranks them, and the first of them are returned.
-/

namespace FietsOfOv

/-- A row of the `stops` table. -/
structure Stop where
  stopId : String
  code : Option String
  name : String
  lat : ℝ
  lon : ℝ
  locationType : Int
  parentStation : Option String
  platformCode : Option String
  zoneId : Option String

/-- The `stops` table, in some order of its rows. -/
structure StopsTable where
  rows : List Stop
  keyed : (rows.map (·.stopId)).Nodup

/-- The query of `get_stops`: it admits no other. -/
structure StopsQuery where
  lat : ℝ
  lon : ℝ
  radius : Int
  lat_ge : -90 ≤ lat
  lat_le : lat ≤ 90
  lon_ge : -180 ≤ lon
  lon_le : lon ≤ 180
  radius_ge : 1 ≤ radius
  radius_le : radius ≤ 5000

noncomputable section

open Classical

/-- What `select(Stop).where(…between…)` asks for, which names no order. -/
def StopsTable.select (table : StopsTable) (box : BoundingBox) : List Stop :=
  table.rows.filter fun stop => box.contains stop.lat stop.lon

/-- `within`, once it is sorted.  `execute` answers the statement. -/
def within (execute : BoundingBox → List Stop) (lat lon radiusM : ℝ) : List (Stop × ℝ) :=
  let candidates := execute (boundingBox lat lon radiusM)
  let measured := candidates.map fun stop => (stop, haversineM lat lon stop.lat stop.lon)
  (measured.filter fun pair => pair.2 ≤ radiusM).insertionSort fun pair pair' => pair.2 ≤ pair'.2

def nearbyStops (execute : BoundingBox → List Stop) (lat lon radiusM : ℝ) (limit : Nat) :
    List (Stop × ℝ) :=
  (within execute lat lon radiusM).take limit

/-- The default of `limit`, which `get_stops` keeps. -/
def defaultLimit : Nat := 50

/-- The `results` of `get_stops`, which it shows row by row. -/
def getStops (execute : BoundingBox → List Stop) (q : StopsQuery) : List (Stop × ℝ) :=
  nearbyStops execute q.lat q.lon q.radius defaultLimit

/-! ## The search as it is meant -/

/-- The stops within the radius. -/
def StopsTable.inRange (table : StopsTable) (lat lon radiusM : ℝ) : List Stop :=
  table.rows.filter fun stop => haversineM lat lon stop.lat stop.lon ≤ radiusM

end

variable {table : StopsTable} {execute : BoundingBox → List Stop} {lat lon radiusM : ℝ}

theorem mem_within {pair : Stop × ℝ} : pair ∈ within execute lat lon radiusM ↔
    pair.1 ∈ execute (boundingBox lat lon radiusM) ∧
      pair.2 = haversineM lat lon pair.1.lat pair.1.lon ∧ pair.2 ≤ radiusM := by
  rw [within, (List.perm_insertionSort _ _).mem_iff, List.mem_filter, List.mem_map]
  constructor
  · rintro ⟨⟨stop, hstop, rfl⟩, hradius⟩
    exact ⟨hstop, rfl, of_decide_eq_true hradius⟩
  · rintro ⟨hstop, hdistance, hradius⟩
    refine ⟨⟨pair.1, hstop, ?_⟩, decide_eq_true hradius⟩
    rw [← hdistance]

theorem within_sorted : (within execute lat lon radiusM).Pairwise fun pair pair' =>
    pair.2 ≤ pair'.2 := by
  have : Std.Total fun pair pair' : Stop × ℝ => pair.2 ≤ pair'.2 := ⟨fun _ _ => le_total _ _⟩
  have : IsTrans (Stop × ℝ) fun pair pair' => pair.2 ≤ pair'.2 := ⟨fun _ _ _ => le_trans⟩
  exact List.pairwise_insertionSort _ _

/-- Ranking loses no candidate in range, and brings in none. -/
theorem within_perm_filter : ((within execute lat lon radiusM).map Prod.fst).Perm
    ((execute (boundingBox lat lon radiusM)).filter fun stop =>
      haversineM lat lon stop.lat stop.lon ≤ radiusM) := by
  have hsort := (List.perm_insertionSort (fun pair pair' : Stop × ℝ => pair.2 ≤ pair'.2)
    (((execute (boundingBox lat lon radiusM)).map fun stop =>
      (stop, haversineM lat lon stop.lat stop.lon)).filter fun pair => pair.2 ≤ radiusM)).map
        Prod.fst
  rw [List.filter_map, List.map_map] at hsort
  simpa [within, List.filter_map, Function.comp_def] using hsort

/-- Where the box drops no stop in range, narrowing the table first changes nothing. -/
theorem within_perm (hexecute : ∀ box, (execute box).Perm (table.select box))
    (hbox : ∀ stop ∈ table.rows, haversineM lat lon stop.lat stop.lon ≤ radiusM →
      (boundingBox lat lon radiusM).contains stop.lat stop.lon) :
    ((within execute lat lon radiusM).map Prod.fst).Perm (table.inRange lat lon radiusM) := by
  have hnarrow : (table.select (boundingBox lat lon radiusM)).filter
      (fun stop => haversineM lat lon stop.lat stop.lon ≤ radiusM) =
        table.inRange lat lon radiusM := by
    rw [StopsTable.select, StopsTable.inRange, List.filter_filter]
    apply List.filter_congr
    intro stop hstop
    simpa using hbox stop hstop
  rw [← hnarrow]
  exact within_perm_filter.trans ((hexecute _).filter _)

/-- Every row counts once. -/
theorem within_nodup (hwithin : ((within execute lat lon radiusM).map Prod.fst).Perm
    (table.inRange lat lon radiusM)) :
    ((within execute lat lon radiusM).map (·.1.stopId)).Nodup := by
  have hrows : ((table.inRange lat lon radiusM).map (·.stopId)).Nodup :=
    table.keyed.sublist (List.filter_sublist.map _)
  have hids := (hwithin.map (·.stopId)).nodup_iff.mpr hrows
  rwa [List.map_map] at hids

/-- What the cut leaves out is no nearer than what it keeps. -/
theorem le_of_not_returned {limit : Nat} {stop : Stop} {pair : Stop × ℝ}
    (hwithin : ((within execute lat lon radiusM).map Prod.fst).Perm
      (table.inRange lat lon radiusM)) (hstop : stop ∈ table.rows)
    (hout : stop ∉ (nearbyStops execute lat lon radiusM limit).map Prod.fst)
    (hpair : pair ∈ nearbyStops execute lat lon radiusM limit) :
    pair.2 ≤ haversineM lat lon stop.lat stop.lon := by
  by_cases hrange : haversineM lat lon stop.lat stop.lon ≤ radiusM
  · have hranked : stop ∈ (within execute lat lon radiusM).map Prod.fst :=
      hwithin.mem_iff.mpr (List.mem_filter.mpr ⟨hstop, decide_eq_true hrange⟩)
    obtain ⟨pair', hpair', rfl⟩ := List.mem_map.mp hranked
    have hlate : pair' ∈ (within execute lat lon radiusM).drop limit := by
      rw [← List.take_append_drop limit (within execute lat lon radiusM),
        List.mem_append] at hpair'
      apply hpair'.resolve_left
      intro hearly
      exact hout (List.mem_map_of_mem hearly)
    have hsorted : (within execute lat lon radiusM).Pairwise fun p p' => p.2 ≤ p'.2 :=
      within_sorted
    rw [← List.take_append_drop limit (within execute lat lon radiusM),
      List.pairwise_append] at hsorted
    rw [← (mem_within.mp (List.mem_of_mem_drop hlate)).2.1]
    exact hsorted.2.2 pair hpair pair' hlate
  · have hradius := (mem_within.mp (List.mem_of_mem_take hpair)).2.2
    exact hradius.trans (not_le.mp hrange).le

/-- `ranked` is the stops within the radius, each once, nearest first, and `returned` the
    first of them. -/
structure ExactSearch (table : StopsTable) (q : StopsQuery) (ranked returned : List (Stop × ℝ)) :
    Prop where
  inBox : ∀ stop ∈ table.rows, haversineM q.lat q.lon stop.lat stop.lon ≤ q.radius →
    (boundingBox q.lat q.lon q.radius).contains stop.lat stop.lon
  stops : (ranked.map Prod.fst).Perm (table.inRange q.lat q.lon q.radius)
  once : (ranked.map (·.1.stopId)).Nodup
  distances : ∀ pair ∈ ranked, pair.2 = haversineM q.lat q.lon pair.1.lat pair.1.lon
  sorted : ranked.Pairwise fun pair pair' => pair.2 ≤ pair'.2
  cut : returned = ranked.take 50
  length : returned.length = min 50 ranked.length
  nearest : ∀ stop ∈ table.rows, stop ∉ returned.map Prod.fst → ∀ pair ∈ returned,
    pair.2 ≤ haversineM q.lat q.lon stop.lat stop.lon

/-- **Nearby stops.**  Whatever order the database returns the rows of the box in, the answer
    is the first fifty of all stops within the radius, each once and nearest first. -/
theorem nearby_stops_exact (table : StopsTable) (execute : BoundingBox → List Stop)
    (q : StopsQuery) (htable : ∀ stop ∈ table.rows, |stop.lat| ≤ 80 ∧ |stop.lon| ≤ 170)
    (hexecute : ∀ box, (execute box).Perm (table.select box)) :
    ExactSearch table q (within execute q.lat q.lon q.radius) (getStops execute q) := by
  have hbox : ∀ stop ∈ table.rows, haversineM q.lat q.lon stop.lat stop.lon ≤ q.radius →
      (boundingBox q.lat q.lon q.radius).contains stop.lat stop.lon := by
    intro stop hstop hrange
    have hradius : (1 : ℝ) ≤ q.radius := by exact_mod_cast q.radius_ge
    have hradius' : (q.radius : ℝ) ≤ 5000 := by exact_mod_cast q.radius_le
    exact contains_of_haversineM_le (abs_le.mpr ⟨q.lat_ge, q.lat_le⟩)
      (abs_le.mpr ⟨q.lon_ge, q.lon_le⟩) (htable stop hstop).1 (htable stop hstop).2
      (zero_lt_one.trans_le hradius) hradius' hrange
  have hstops := within_perm hexecute hbox
  exact {
    inBox := hbox
    stops := hstops
    once := within_nodup hstops
    distances := fun pair hpair => (mem_within.mp hpair).2.1
    sorted := within_sorted
    cut := rfl
    length := List.length_take
    nearest := fun stop hstop hout pair hpair => le_of_not_returned hstops hstop hout hpair }

/-- A table of two stops, one of them where the query is. -/
def damTable : StopsTable where
  rows := [
    { stopId := "dam", code := none, name := "Dam", lat := 52, lon := 5, locationType := 0
      parentStation := none, platformCode := none, zoneId := none },
    { stopId := "muiden", code := none, name := "Muiden", lat := 53, lon := 6, locationType := 0
      parentStation := none, platformCode := none, zoneId := none }]
  keyed := by decide

theorem nearby_stops_exact_dam :
    ∃ q : StopsQuery, (q.lat = 52 ∧ q.lon = 5 ∧ q.radius = 500) ∧
      damTable.inRange q.lat q.lon q.radius ≠ [] ∧
      ExactSearch damTable q (within damTable.select q.lat q.lon q.radius)
        (getStops damTable.select q) := by
  have hlat : (-90 : ℝ) ≤ 52 ∧ (52 : ℝ) ≤ 90 := by norm_num
  have hlon : (-180 : ℝ) ≤ 5 ∧ (5 : ℝ) ≤ 180 := by norm_num
  refine ⟨⟨52, 5, 500, hlat.1, hlat.2, hlon.1, hlon.2, by decide, by decide⟩, ⟨rfl, rfl, rfl⟩,
    ?_, ?_⟩
  · have hzero : haversineM 52 5 52 5 = 0 := by simp [haversineM, radians]
    apply List.ne_nil_of_mem (List.mem_filter.mpr ⟨List.mem_cons_self, ?_⟩)
    simp [hzero]
  · apply nearby_stops_exact
    · intro stop hstop
      rcases List.mem_pair.mp hstop with rfl | rfl <;> norm_num [abs_of_pos]
    · intro box
      exact List.Perm.refl _

end FietsOfOv
