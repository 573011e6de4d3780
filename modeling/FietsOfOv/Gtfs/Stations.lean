import FietsOfOv.Gtfs.Filter

/-!
# Closing the stops under their stations

The loop `while frontier` of `main` starts from the stops that the kept stop_times name.
It ends whatever stands in the parent_station column, be it a long chain, a stop that is
its own parent, a cycle or a parent without a row, and `keep` is then the least set that
will do.
-/

namespace FietsOfOv.Gtfs

open Csv

/-- The row that `all_stops` has under an id: the last of those with it. -/
def IsStop (rows : List Row) (id : Option String) (r : Row) : Prop :=
  ∃ before after, rows = before ++ r :: after ∧ r.get "stop_id" = id ∧
    ∀ later ∈ after, later.get "stop_id" ≠ id

/-- The set holds the referenced stops, and the stations that its members name. -/
structure HoldsStations (rows : List Row) (stopIds : Finset (Option String))
    (S : Set (Option String)) : Prop where
  referenced : ∀ id ∈ stopIds, id ∈ S
  stations : ∀ id ∈ S, ∀ r, IsStop rows id r → truthy (r.get "parent_station") →
    r.get "parent_station" ∈ S

section Stations

variable {rows : List Row} {stopIds : Finset (Option String)} {id : Option String} {r : Row}
  {S : Set (Option String)}

theorem allStops_eq_some_iff : allStops rows id = some r ↔ IsStop rows id r := by
  rw [allStops, List.find?_eq_some_iff_append]
  constructor
  · rintro ⟨hid, after, before, hrows, hlater⟩
    refine ⟨before.reverse, after.reverse, ?_, by simpa using hid, ?_⟩
    · rw [List.reverse_eq_iff] at hrows
      simp [hrows]
    · intro later hmem
      simpa using hlater later (List.mem_reverse.mp hmem)
  · rintro ⟨before, after, rfl, hid, hlater⟩
    refine ⟨by simpa using hid, after.reverse, before.reverse, by simp, ?_⟩
    intro later hmem
    simpa using hlater later (List.mem_reverse.mp hmem)

theorem holdsStations_iff :
    HoldsStations rows stopIds S ↔
      Closure.grow (parents (allStops rows)) stopIds S ≤ S := by
  constructor
  · rintro hholds station (hmem | ⟨id, hid, hmem⟩)
    · exact hholds.referenced station hmem
    · obtain ⟨r, hr, htruthy, rfl⟩ := mem_parents.mp hmem
      exact hholds.stations id hid r (allStops_eq_some_iff.mp hr) htruthy
  · intro hclosed
    constructor
    · exact fun id hid => hclosed (Or.inl hid)
    · intro id hid r hr htruthy
      have hmem := mem_parents.mpr ⟨r, allStops_eq_some_iff.mpr hr, htruthy, rfl⟩
      exact hclosed (Or.inr ⟨id, hid, hmem⟩)

/-- **The loop over the stations ends**, in one state, and what it has kept by then is the
    least set with the referenced stops and the stations of its members. -/
theorem stations_closed_least (rows : List Row) (stopIds : Finset (Option String)) :
    ∃ s, (∀ s', Closure.Ends (parents (allStops rows)) ⟨stopIds, stopIds⟩ s' ↔ s' = s) ∧
      s.keep = keptStops rows stopIds ∧
      (s.keep : Set (Option String)) =
        (Closure.grow (parents (allStops rows)) stopIds).lfp ∧
      IsLeast {S | HoldsStations rows stopIds S} (s.keep : Set (Option String)) := by
  have hends : Closure.Ends (parents (allStops rows)) ⟨stopIds, stopIds⟩
      (Closure.search (parents (allStops rows)) (rows.length + 1) stopIds) :=
    Closure.ends_run (keptStops_done rows stopIds)
  have hlfp : (keptStops rows stopIds : Set (Option String)) =
      (Closure.grow (parents (allStops rows)) stopIds).lfp := by
    rw [Closure.lfp_grow]
    exact Set.ext fun id => mem_keptStops
  have hleast : IsLeast {S | HoldsStations rows stopIds S}
      (keptStops rows stopIds : Set (Option String)) := by
    rw [hlfp]
    simp only [holdsStations_iff]
    exact OrderHom.isLeast_lfp_le _
  refine ⟨_, fun s' => ⟨fun h => h.unique hends, ?_⟩, rfl, hlfp, hleast⟩
  rintro rfl
  exact hends

/-- A cycle of stations, a stop that is its own, and one whose station has no row. -/
example :
    keptStops ([["a", "b"], ["b", "a"], ["c", "c"], ["d", "x"], ["e", "d"]].map
      (readRow ["stop_id", "parent_station"])) {some "a", some "c", some "d"} =
      {some "a", some "b", some "c", some "d", some "x"} := by
  decide +kernel

end Stations

end FietsOfOv.Gtfs
