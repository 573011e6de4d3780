import FietsOfOv.Gtfs.Idempotence
import FietsOfOv.Lib.Hull

/-!
# Bikes on the metro outside the rush hours

Which metro trips `main` marks as taking bikes, against the clock that hangs at the
station: a service day's times run on past 24:00:00, into the rush hours of the next day.
-/

namespace FietsOfOv.Gtfs

open Csv
open Text (asciiLower)

/-! ## Times -/

/-- A well-formed H:MM:SS; the hours keep their digits, of which there may be many. -/
structure ClockTime where
  hours : List Char
  minutes : Nat
  seconds : Nat
deriving DecidableEq

def isNumeral (text : List Char) : Bool := text ≠ [] ∧ text.all Char.isDigit

/-- `none` where the text is not a well-formed H:MM:SS. -/
def clockTime (text : String) : Option ClockTime :=
  match Text.split ':' text.toList with
  | [h, m, s] =>
      if isNumeral h ∧ (isNumeral m ∧ m.length = 2 ∧ Nat.ofDigitChars 10 m 0 < 60) ∧
          isNumeral s ∧ s.length = 2 ∧ Nat.ofDigitChars 10 s 0 < 60 then
        some ⟨h, Nat.ofDigitChars 10 m 0, Nat.ofDigitChars 10 s 0⟩
      else none
  | _ => none

/-- The seconds since the start of the service day. -/
def ClockTime.time (t : ClockTime) : Int :=
  Nat.ofDigitChars 10 t.hours 0 * 3600 + t.minutes * 60 + t.seconds

/-- The hours are not too long for `int`. -/
def ClockTime.isRead (t : ClockTime) : Bool := t.hours.length ≤ Text.maxStrDigits

example : ((clockTime "31:30:00").map (·.time), clockTime "7:60:00", clockTime "730") =
    (some 113400, none, none) := by decide

theorem int_of_isNumeral {text : List Char} (htext : isNumeral text) :
    Text.int text =
      if text.length ≤ Text.maxStrDigits then some (Nat.ofDigitChars 10 text 0 : Int)
      else none := by
  obtain ⟨hne, hdigits⟩ := of_decide_eq_true htext
  exact Text.int_of_isDigit hne (List.all_eq_true.mp hdigits)

theorem int_of_two {text : List Char} (htext : isNumeral text) (htwo : text.length = 2) :
    Text.int text = some (Nat.ofDigitChars 10 text 0 : Int) := by
  rw [int_of_isNumeral htext, if_pos]
  rw [htwo]
  decide

/-- `_secs` reads every well-formed time that `int` can read. -/
theorem secs_of_clockTime {text : String} {t : ClockTime} (ht : clockTime text = some t) :
    secs (some text) = if t.isRead then some t.time else none := by
  have hne : text ≠ "" := by
    rintro rfl
    cases ht
  rw [clockTime] at ht
  split at ht
  · rename_i h m s hsplit
    split at ht
    · rename_i hform
      obtain ⟨hh, ⟨hm, hmtwo, -⟩, hs, hstwo, -⟩ := hform
      obtain rfl := Option.some.inj ht
      simp only [secs, if_neg hne, hsplit, int_of_isNumeral hh, int_of_two hm hmtwo,
        int_of_two hs hstwo]
      by_cases hread : h.length ≤ Text.maxStrDigits
      · simp [hread, ClockTime.isRead, ClockTime.time]
      · simp [hread, ClockTime.isRead]
    · cases ht
  · cases ht

/-! ## What the repair should do -/

section Repair

variable (lower : String → String) (wanted : String) (feed : Feed)

/-- The times of a stop_times row that are not left blank. -/
def timeCells (r : Row) : List String :=
  ["arrival_time", "departure_time"].filterMap fun key => (r.get key).filter (· ≠ "")

/-- Every time is a well-formed H:MM:SS. -/
def WellTimed : Prop :=
  ∀ r ∈ (read feed.stopTimes).rows, ∀ text ∈ timeCells r, clockTime text ≠ none

/-- The times of a trip, wherever its rows stand. -/
def tripTimes (id : Option String) : List ClockTime :=
  (having "trip_id" [id] (read feed.stopTimes).rows).flatMap fun r =>
    (timeCells r).filterMap clockTime

/-- Strictly inside a rush window. -/
def InRush (moment : Int) : Prop :=
  ∃ window ∈ rushWindows, window.1 < moment ∧ moment < window.2

/-- From the first to the last of the times the clock is never inside a rush window. -/
def AvoidsRush (times : List ClockTime) : Prop :=
  ∀ moment, Hull.Between (times.map (·.time)) moment → ¬ InRush (moment % (24 * 3600))

/-- The same of the windows of the service day only, without those of later days. -/
def AvoidsFirstRush (times : List ClockTime) : Prop :=
  ∀ moment, Hull.Between (times.map (·.time)) moment → ¬ InRush moment

/-- The trip is one of a kept metro route. -/
def OnMetro (r : Row) : Prop :=
  ∃ route ∈ keptRoutes lower wanted feed,
    route.get "route_type" = some metroRouteType ∧ route.get "route_id" = r.get "route_id"

/-- What a file shows in a column. -/
def shown (r : Row) (column : String) : String := (r.get column).getD ""

/-- A trip as it was and as it is written. -/
structure Repaired (r r' : Row) : Prop where
  same : ∀ column, column ≠ "bikes_allowed" → shown r' column = shown r column
  changed : shown r' "bikes_allowed" ≠ shown r "bikes_allowed" →
    OnMetro lower wanted feed r ∧ shown r "bikes_allowed" ≠ "1" ∧
      shown r' "bikes_allowed" = "1" ∧ AvoidsRush (tripTimes feed (r.get "trip_id"))
  opened : OnMetro lower wanted feed r → shown r "bikes_allowed" ≠ "1" →
    tripTimes feed (r.get "trip_id") ≠ [] → AvoidsRush (tripTimes feed (r.get "trip_id")) →
    shown r' "bikes_allowed" = "1"

/-- The trips that are written are the kept ones, repaired. -/
def RepairsOffPeak (out : Feed) : Prop :=
  List.Forall₂ (Repaired lower wanted feed) (keptTrips lower wanted feed) (read out.trips).rows

end Repair

/-- The times mislead `main`: it sees the windows of the service day only, and passes over
    hours that are too long for `int`. -/
inductive Misjudged (times : List ClockTime) : Prop where
  | late : times.filter (·.isRead) ≠ [] → AvoidsFirstRush (times.filter (·.isRead)) →
      ¬ AvoidsRush times → Misjudged times
  | unread : times.filter (·.isRead) = [] → times ≠ [] → AvoidsRush times → Misjudged times

variable {lower : String → String} {wanted : String} {feed : Feed} {order : SetOrder}
  {rows : List Row} {r : Row} {id : Option String} {candidates : List (Option String)}
  {times : List ClockTime} {s : Selection} {out : Filtered}

theorem inRush_iff {moment : Int} : InRush moment ↔
    7 * 3600 < moment ∧ moment < 9 * 3600 ∨
      16 * 3600 < moment ∧ moment < 18 * 3600 + 30 * 60 := by
  simp [InRush, rushWindows]

theorem rushWindows_within : ∀ window ∈ rushWindows,
    0 ≤ window.1 ∧ window.1 + 1 < window.2 ∧ window.2 ≤ 24 * 3600 := by decide

/-- The rush hours are hours of a day, so a trip that avoids them on every day does so on the
    first. -/
theorem AvoidsRush.first (h : AvoidsRush times) : AvoidsFirstRush (times.filter (·.isRead)) := by
  rintro moment hbetween ⟨window, hwindow, hin⟩
  have hsub : (times.filter (·.isRead)).map (·.time) ⊆ times.map (·.time) :=
    List.map_subset _ (List.filter_subset_self _)
  obtain ⟨hstart, -, hstop⟩ := rushWindows_within window hwindow
  apply h moment (hbetween.mono hsub)
  rw [Int.emod_eq_of_lt (by omega) (by omega)]
  exact ⟨window, hwindow, hin⟩

/-! ## The span of a trip -/

theorem extendSpan_self (spans : Spans) (time : Int) :
    extendSpan id spans time id = Hull.extend (spans id) time := by
  rw [extendSpan, Function.update_self]
  cases spans id <;> rfl

theorem extendSpans_self (spans : Spans) (times : List Int) :
    times.foldl (extendSpan id) spans id = times.foldl Hull.extend (spans id) := by
  induction times generalizing spans with
  | nil => rfl
  | cons time times ih => rw [List.foldl_cons, List.foldl_cons, ih, extendSpan_self]

/-- The span kept of a candidate is the hull of its times. -/
theorem spansOf_eq (hid : id ∈ candidates) :
    spansOf candidates rows id = Hull.hull ((having "trip_id" [id] rows).flatMap timesOf) := by
  have hfold : ∀ spans : Spans, rows.foldl (collectSpan candidates) spans id =
      ((having "trip_id" [id] rows).flatMap timesOf).foldl Hull.extend (spans id) := by
    induction rows with
    | nil => exact fun _ => rfl
    | cons r rows ih =>
        intro spans
        rw [List.foldl_cons, ih]
        by_cases hr : r.get "trip_id" = id
        · have hcons : having "trip_id" [id] (r :: rows) = r :: having "trip_id" [id] rows :=
            List.filter_cons_of_pos (by simp [hr])
          rw [hcons, List.flatMap_cons, List.foldl_append, collectSpan, hr, if_pos hid,
            extendSpans_self]
        · have hcons : having "trip_id" [id] (r :: rows) = having "trip_id" [id] rows :=
            List.filter_cons_of_neg (by simp [hr])
          rw [hcons, collectSpan]
          split
          · rw [extendSpans_of_ne (Ne.symm hr)]
          · rfl
  exact hfold _

/-- What `_secs` reads of a row are the times that `int` can read. -/
theorem mem_timesOf (hr : ∀ text ∈ timeCells r, clockTime text ≠ none) {time : Int} :
    time ∈ timesOf r ↔
      ∃ t ∈ (timeCells r).filterMap clockTime, t.isRead ∧ t.time = time := by
  have hcell : ∀ text ∈ timeCells r, secs (some text) = some time ↔
      ∃ t, clockTime text = some t ∧ t.isRead ∧ t.time = time := by
    intro text htext
    obtain ⟨t, ht⟩ := Option.ne_none_iff_exists'.mp (hr text htext)
    rw [secs_of_clockTime ht, ht]
    by_cases hread : t.isRead <;> simp [hread]
  have hcells : time ∈ timesOf r ↔ ∃ text ∈ timeCells r, secs (some text) = some time := by
    simp only [timesOf, timeCells, List.mem_filterMap, Option.filter_eq_some_iff]
    constructor
    · rintro ⟨key, hkey, htime⟩
      cases hget : r.get key with
      | none =>
          rw [hget] at htime
          cases htime
      | some text =>
          rw [hget] at htime
          refine ⟨text, ⟨key, hkey, hget, ?_⟩, htime⟩
          rw [decide_eq_true_eq]
          rintro rfl
          cases htime
    · rintro ⟨text, ⟨key, hkey, hget, -⟩, htime⟩
      exact ⟨key, hkey, hget ▸ htime⟩
  rw [hcells]
  constructor
  · rintro ⟨text, htext, htime⟩
    obtain ⟨t, ht, hread⟩ := (hcell text htext).mp htime
    exact ⟨t, List.mem_filterMap.mpr ⟨text, htext, ht⟩, hread⟩
  · rintro ⟨t, ht, hread⟩
    obtain ⟨text, htext, ht⟩ := List.mem_filterMap.mp ht
    exact ⟨text, htext, (hcell text htext).mpr ⟨t, ht, hread⟩⟩

/-- The times the span of a trip is made of. -/
theorem mem_readTimes (hfeed : WellTimed feed) {time : Int} :
    time ∈ (having "trip_id" [id] (read feed.stopTimes).rows).flatMap timesOf ↔
      time ∈ ((tripTimes feed id).filter (·.isRead)).map (·.time) := by
  simp only [tripTimes, List.mem_map, List.mem_filter, List.mem_flatMap]
  constructor
  · rintro ⟨r, hr, htime⟩
    obtain ⟨t, ht, hread, htime⟩ := (mem_timesOf (hfeed r (mem_having.mp hr).1)).mp htime
    exact ⟨t, ⟨⟨r, hr, ht⟩, hread⟩, htime⟩
  · rintro ⟨t, ⟨⟨r, hr, ht⟩, hread⟩, htime⟩
    exact ⟨r, hr, (mem_timesOf (hfeed r (mem_having.mp hr).1)).mpr ⟨t, ht, hread, htime⟩⟩

/-- `offPeak` compares the bounds of some times with the windows of the service day. -/
theorem offPeak_iff {xs : List Int} {lo hi : Int} (h : Hull.Bounds xs lo hi) :
    offPeak (lo, hi) ↔ ∀ moment, Hull.Between xs moment → ¬ InRush moment := by
  have hmeets : ∀ window ∈ rushWindows, (∃ moment, Hull.Between xs moment ∧
      window.1 < moment ∧ moment < window.2) ↔ lo < window.2 ∧ window.1 < hi :=
    fun window hwindow => h.meets_iff (rushWindows_within window hwindow).2.1
  simp only [offPeak, decide_eq_true_eq, List.any_eq_true, gt_iff_lt]
  constructor
  · rintro hoff moment hbetween ⟨window, hwindow, hin⟩
    exact hoff ⟨window, hwindow, (hmeets window hwindow).mp ⟨moment, hbetween, hin⟩⟩
  · rintro hclear ⟨window, hwindow, hoverlap⟩
    obtain ⟨moment, hbetween, hin⟩ := (hmeets window hwindow).mpr hoverlap
    exact hclear moment hbetween ⟨window, hwindow, hin⟩

theorem having_of_mem {column : String} {ids : List (Option String)} (hid : id ∈ ids) :
    having column [id] (having column ids rows) = having column [id] rows := by
  rw [having, having, having, List.filter_filter]
  refine List.filter_congr fun row _ => ?_
  by_cases hrow : row.get column = id <;> simp [hrow, hid]

/-- A kept trip is patched if it is a candidate and its times, as far as they are read, avoid
    the windows of the service day. -/
theorem isPatched_iff (hs : Selects lower wanted feed s) (hfeed : WellTimed feed)
    (hr : r ∈ s.trips) :
    isPatched (s.spans feed) s.bikeCandidates r ↔
      r.get "trip_id" ∈ s.bikeCandidates ∧
        (tripTimes feed (r.get "trip_id")).filter (·.isRead) ≠ [] ∧
        AvoidsFirstRush ((tripTimes feed (r.get "trip_id")).filter (·.isRead)) := by
  by_cases hcandidate : r.get "trip_id" ∈ s.bikeCandidates
  · let reads := (tripTimes feed (r.get "trip_id")).filter (·.isRead)
    let seconds := (having "trip_id" [r.get "trip_id"] (read feed.stopTimes).rows).flatMap timesOf
    have hmem : ∀ time, time ∈ seconds ↔ time ∈ reads.map (·.time) := fun _ => mem_readTimes hfeed
    have hspan : s.spans feed (r.get "trip_id") = Hull.hull seconds := by
      have hid : r.get "trip_id" ∈ s.tripIds := hs.tripIds ▸ List.mem_map_of_mem hr
      rw [Selection.spans, spansOf_eq hcandidate, Selection.stopTimes, having_of_mem hid]
    rw [isPatched, hspan]
    rcases Hull.hull_spec seconds with ⟨hempty, hnone⟩ | ⟨lo, hi, hsome, hbounds⟩
    · have hreads : reads = [] := by
        rw [← List.map_eq_nil_iff (f := (·.time)), List.eq_nil_iff_forall_not_mem]
        intro time htime
        rw [← hmem, hempty] at htime
        cases htime
      rw [hnone]
      exact iff_of_false Bool.false_ne_true fun h => h.2.1 hreads
    · have hreads : reads ≠ [] := by
        intro hnil
        have hlo := (hmem lo).mp hbounds.mem_lo
        rw [hnil] at hlo
        cases hlo
      have hbetween : ∀ moment, Hull.Between seconds moment ↔
          Hull.Between (reads.map (·.time)) moment := fun moment =>
        ⟨.mono fun time => (hmem time).mp, .mono fun time => (hmem time).mpr⟩
      simp only [hsome, hcandidate, true_and, decide_eq_true_eq, offPeak_iff hbounds, hbetween]
      exact (and_iff_right hreads).symm
  · rw [isPatched]
    split <;> simp [hcandidate]

/-! ## The trips that are written -/

/-- Where trips have their own ids, the candidates are the metro trips that are not marked. -/
theorem mem_bikeCandidates (hs : Selects lower wanted feed s)
    (hunique : ((read feed.trips).rows.map (·.get "trip_id")).Nodup) (hr : r ∈ s.trips) :
    r.get "trip_id" ∈ s.bikeCandidates ↔
      OnMetro lower wanted feed r ∧ shown r "bikes_allowed" ≠ "1" := by
  have hmetro : ∀ row : Row, row.get "route_id" ∈
      (having "route_type" [some metroRouteType] s.routes).map (·.get "route_id") ↔
        OnMetro lower wanted feed row := by
    intro row
    rw [hs.routes_eq]
    simp [OnMetro, having, and_assoc]
  have hmarked : ∀ row : Row, row.get "bikes_allowed" ≠ some "1" ↔
      shown row "bikes_allowed" ≠ "1" := by
    intro row
    cases hget : row.get "bikes_allowed" <;> simp [shown, hget]
  rw [hs.bikeCandidates]
  constructor
  · intro hid
    obtain ⟨row, hrow, hsame⟩ := List.mem_map.mp hid
    obtain ⟨hrow, hbikes⟩ := List.mem_filter.mp hrow
    obtain ⟨htrip, hroute⟩ := mem_having.mp hrow
    obtain rfl : row = r :=
      List.inj_on_of_nodup_map hunique (hs.mem_trips htrip) (hs.mem_trips hr) hsame
    exact ⟨(hmetro row).mp hroute, (hmarked row).mp (of_decide_eq_true hbikes)⟩
  · rintro ⟨hroute, hbikes⟩
    refine List.mem_map_of_mem (List.mem_filter.mpr ⟨mem_having.mpr ⟨hr, ?_⟩, ?_⟩)
    · exact (hmetro r).mpr hroute
    · exact decide_eq_true ((hmarked r).mpr hbikes)

/-- What is written of a row shows its values. -/
theorem shown_written {header : List String} {column : String}
    (hcolumn : column ∉ header → r column = none) :
    shown (r.written header) column = shown r column := by
  by_cases hmem : column ∈ header
  · rw [shown, get_written hmem, Option.getD_some, shown]
  · simp [shown, Row.get, written_apply, hmem, hcolumn hmem]

theorem shown_readAgain {header : List String} (hs : Selects lower wanted feed s)
    (hw : Writes order feed s out)
    (hheader : tripFields (read feed.trips).fields out.patched = some header) (hr : r ∈ s.trips)
    (column : String) : shown (readAgain feed s header r) column =
      shown (patch (s.spans feed) s.bikeCandidates r) column :=
  shown_written (under_patched hs hw header hheader _ (List.mem_map_of_mem hr) column)

theorem shown_patch_of_ne {spans : Spans} {column : String} (hne : column ≠ "bikes_allowed") :
    shown (patch spans candidates r) column = shown r column := by
  rw [shown, Row.get, patch_of_ne hne, shown, Row.get]

theorem shown_patch {spans : Spans} :
    shown (patch spans candidates r) "bikes_allowed" =
      if isPatched spans candidates r then "1" else shown r "bikes_allowed" := by
  rw [patch]
  split
  · rw [shown, get_set_self, Option.getD_some]
  · rfl

/-- One trip is repaired unless its times mislead. -/
theorem repaired_iff {r' : Row} (hs : Selects lower wanted feed s) (hfeed : WellTimed feed)
    (hunique : ((read feed.trips).rows.map (·.get "trip_id")).Nodup) (hr : r ∈ s.trips)
    (hshown : ∀ column, shown r' column = shown (patch (s.spans feed) s.bikeCandidates r) column) :
    Repaired lower wanted feed r r' ↔
      ¬ (OnMetro lower wanted feed r ∧ shown r "bikes_allowed" ≠ "1" ∧
        Misjudged (tripTimes feed (r.get "trip_id"))) := by
  have hpatched := isPatched_iff hs hfeed hr
  rw [mem_bikeCandidates hs hunique hr] at hpatched
  have hbikes : shown r' "bikes_allowed" =
      if isPatched (s.spans feed) s.bikeCandidates r then "1" else shown r "bikes_allowed" := by
    rw [hshown, shown_patch]
  constructor
  · rintro hrepaired ⟨hmetro, hmarked, hmisjudged⟩
    cases hmisjudged with
    | late hread hfirst hrush =>
        rw [if_pos (hpatched.mpr ⟨⟨hmetro, hmarked⟩, hread, hfirst⟩)] at hbikes
        apply hrush
        exact (hrepaired.changed (by rw [hbikes]; exact Ne.symm hmarked)).2.2.2
    | unread hread hne havoids =>
        rw [if_neg fun hpatch => (hpatched.mp hpatch).2.1 hread] at hbikes
        apply hmarked
        rw [← hbikes]
        exact hrepaired.opened hmetro hmarked hne havoids
  · intro hjudged
    refine ⟨?_, ?_, ?_⟩
    · intro column hne
      rw [hshown, shown_patch_of_ne hne]
    · intro hchanged
      have hpatch : isPatched (s.spans feed) s.bikeCandidates r := by
        by_contra hpatch
        rw [if_neg hpatch] at hbikes
        exact hchanged hbikes
      obtain ⟨⟨hmetro, hmarked⟩, hread, hfirst⟩ := hpatched.mp hpatch
      rw [if_pos hpatch] at hbikes
      refine ⟨hmetro, hmarked, hbikes, ?_⟩
      by_contra hrush
      exact hjudged ⟨hmetro, hmarked, .late hread hfirst hrush⟩
    · intro hmetro hmarked hne havoids
      have hread : (tripTimes feed (r.get "trip_id")).filter (·.isRead) ≠ [] :=
        fun hread => hjudged ⟨hmetro, hmarked, .unread hread hne havoids⟩
      rw [hbikes, if_pos (hpatched.mpr ⟨⟨hmetro, hmarked⟩, hread, havoids.first⟩)]

theorem repairsOffPeak_iff (hs : Selects lower wanted feed s) (hw : Writes order feed s out)
    (hfeed : WellTimed feed) (hunique : ((read feed.trips).rows.map (·.get "trip_id")).Nodup) :
    RepairsOffPeak lower wanted feed out.feed ↔
      ∀ r ∈ keptTrips lower wanted feed, ¬ (OnMetro lower wanted feed r ∧
        shown r "bikes_allowed" ≠ "1" ∧ Misjudged (tripTimes feed (r.get "trip_id"))) := by
  obtain ⟨header, hheader, -, hread⟩ := read_patched hs hw
  rw [RepairsOffPeak, hread, ← hs.trips_eq, List.forall₂_map_right_iff, List.forall₂_same]
  exact forall₂_congr fun r hr =>
    repaired_iff hs hfeed hunique hr (shown_readAgain hs hw hheader hr)

/-- **The repair opens no rush hour metro** and every other one, unless the times of a trip
    mislead it: they avoid the rush windows of the service day but not those of the next day,
    or none of them can be read. -/
theorem off_peak_repair_iff (lower : String → String) (order : SetOrder) (agencyMatch : String)
    (feed : Feed) (out : Filtered) (hout : main lower order agencyMatch feed = .ok out)
    (hunique : ((read feed.trips).rows.map (·.get "trip_id")).Nodup) (hfeed : WellTimed feed) :
    RepairsOffPeak lower (lower agencyMatch) feed out.feed ↔
      ∀ r ∈ keptTrips lower (lower agencyMatch) feed,
        ¬ (OnMetro lower (lower agencyMatch) feed r ∧ shown r "bikes_allowed" ≠ "1" ∧
          Misjudged (tripTimes feed (r.get "trip_id"))) := by
  obtain ⟨s, hs, hw⟩ := main_eq_ok.mp hout
  exact repairsOffPeak_iff hs hw hfeed hunique

/-! ### A metro after midnight -/

/-- The metro of the shared station at other times; its last stop comes first in the file. -/
def nightMetro (first last : String) : Feed :=
  { sharedStation [] with
    stopTimes := some ⟨["trip_id", "arrival_time", "departure_time", "stop_id"],
      [["metro", last, "", "CS"], ["metro", "", first, "CS"]]⟩ }

theorem nightMetro_accepted (first last : String) :
    Accepted asciiLower (asciiLower "GVB") (nightMetro first last) := by
  have h := sharedStation_accepted []
  exact ⟨h.matched, h.found, h.agencyColumn, h.routeColumn, h.tripColumn, h.stopColumn,
    by simp [nightMetro, sharedStation, read]⟩

theorem nightMetro_unique (first last : String) :
    ((read (nightMetro first last).trips).rows.map (·.get "trip_id")).Nodup := by
  have h : ((read (sharedStation []).trips).rows.map (·.get "trip_id")).Nodup := by decide +kernel
  exact h

/-- From half past midnight until ten past one, on a service day that began the day before. -/
theorem off_peak_repair_iff_nightMetro :
    ∃ out, main asciiLower someOrder "GVB" (nightMetro "24:30:00" "25:10:00") = .ok out ∧
      RepairsOffPeak asciiLower (asciiLower "GVB") (nightMetro "24:30:00" "25:10:00") out.feed := by
  obtain ⟨out, hout⟩ := main_isOk_iff.mpr (nightMetro_accepted "24:30:00" "25:10:00")
  have htimed : WellTimed (nightMetro "24:30:00" "25:10:00") := by
    unfold WellTimed
    decide +kernel
  refine ⟨out, hout, (off_peak_repair_iff _ _ _ _ out hout (nightMetro_unique _ _) htimed).mpr ?_⟩
  have htimes : ∀ r ∈ keptTrips asciiLower (asciiLower "GVB") (nightMetro "24:30:00" "25:10:00"),
      tripTimes (nightMetro "24:30:00" "25:10:00") (r.get "trip_id") =
        [⟨['2', '5'], 10, 0⟩, ⟨['2', '4'], 30, 0⟩] := by decide +kernel
  rintro r hr ⟨-, -, hmisjudged⟩
  rw [htimes r hr] at hmisjudged
  cases hmisjudged with
  | late hread hfirst hrush =>
      apply hrush
      have hseconds : [(⟨['2', '5'], 10, 0⟩ : ClockTime), ⟨['2', '4'], 30, 0⟩].map (·.time) =
          [90600, 88200] := by decide +kernel
      rw [AvoidsRush, hseconds]
      rintro moment ⟨lo, hlo, hi, hhi, hle⟩
      simp only [List.mem_cons, List.not_mem_nil, or_false] at hlo hhi
      rw [inRush_iff]
      omega
  | unread hread => exact absurd hread (by decide)

/-- From half past six until half past seven in the morning of the day after. -/
theorem rush_hour_metro_opened :
    ¬ ∀ (lower : String → String) (order : SetOrder) (agencyMatch : String) (feed : Feed)
        (out : Filtered), main lower order agencyMatch feed = .ok out →
        ((read feed.routes).rows.map (·.get "route_id")).Nodup →
        ((read feed.trips).rows.map (·.get "trip_id")).Nodup → WellTimed feed →
        RepairsOffPeak lower (lower agencyMatch) feed out.feed := by
  intro hall
  obtain ⟨out, hout⟩ := main_isOk_iff.mpr (nightMetro_accepted "30:30:00" "31:30:00")
  have htimed : WellTimed (nightMetro "30:30:00" "31:30:00") := by
    unfold WellTimed
    decide +kernel
  have hrepairs := hall _ someOrder _ _ out hout (by decide +kernel) (nightMetro_unique _ _) htimed
  obtain ⟨s, hs, hw⟩ := main_eq_ok.mp hout
  rw [repairsOffPeak_iff hs hw htimed (nightMetro_unique _ _)] at hrepairs
  have htimes : ∀ r ∈ keptTrips asciiLower (asciiLower "GVB") (nightMetro "30:30:00" "31:30:00"),
      OnMetro asciiLower (asciiLower "GVB") (nightMetro "30:30:00" "31:30:00") r ∧
        shown r "bikes_allowed" ≠ "1" ∧
        tripTimes (nightMetro "30:30:00" "31:30:00") (r.get "trip_id") =
          [⟨['3', '1'], 30, 0⟩, ⟨['3', '0'], 30, 0⟩] := by
    unfold OnMetro
    decide +kernel
  have hseconds : [(⟨['3', '1'], 30, 0⟩ : ClockTime), ⟨['3', '0'], 30, 0⟩].map (·.time) =
      [113400, 109800] := by decide +kernel
  obtain ⟨r, hr⟩ : ∃ r, r ∈ keptTrips asciiLower (asciiLower "GVB")
      (nightMetro "30:30:00" "31:30:00") := List.exists_mem_of_ne_nil _ (by decide +kernel)
  obtain ⟨hmetro, hmarked, htrip⟩ := htimes r hr
  apply hrepairs r hr
  rw [htrip]
  refine ⟨hmetro, hmarked, .late (by decide) ?_ ?_⟩
  · rw [AvoidsFirstRush, List.filter_eq_self.mpr (by decide), hseconds]
    rintro moment ⟨lo, hlo, hi, hhi, hle⟩
    simp only [List.mem_cons, List.not_mem_nil, or_false] at hlo hhi
    rw [inRush_iff]
    omega
  · intro havoids
    rw [AvoidsRush, hseconds] at havoids
    exact havoids 113400 (Hull.between_of_mem (by simp)) ⟨_, List.mem_cons_self, by decide⟩

end FietsOfOv.Gtfs
