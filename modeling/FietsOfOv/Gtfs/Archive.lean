import FietsOfOv.Gtfs.Idempotence
import FietsOfOv.Lib.CsvText

/-!
# From archive to archive

`otp/scripts/filter_gtfs_gvb.py` with its `_read` and `_write`: members are taken apart from
their text and put together again.  A member is the text that its bytes decode to; zip files
and bytes that do not decode are not modelled, nor which of two exceptions comes first.
-/

namespace FietsOfOv.Gtfs

open Csv
open Text (asciiLower)

/-- The members of a zip archive by their names. -/
abbrev Archive := String → Option (List Char)

/-- What `encoding="utf-8-sig"` makes of a text: a byte-order mark in front is dropped. -/
def decodeSig : List Char → List Char
  | '\ufeff' :: text => text
  | text => text

/-- `csv.field_size_limit()` -/
def fieldSizeLimit : Nat := 131072

/-- What a `DictReader` makes of its records: the header and the lines under it. -/
def fileOf : List (List String) → Option File
  | [] => none
  | header :: lines => some ⟨header, lines⟩

/-- `_read` -/
def readMember : Option (List Char) → Except CsvError (Option File)
  | none => .ok none
  | some text => do return fileOf (← records fieldSizeLimit (decodeSig text))

/-- What `_write` writes. -/
def memberText (file : File) : List Char := writeRecords (file.header :: file.lines)

def readFeed (zf : Archive) : Except CsvError Feed := do
  let agency ← readMember (zf "agency.txt")
  let routes ← readMember (zf "routes.txt")
  let trips ← readMember (zf "trips.txt")
  let stopTimes ← readMember (zf "stop_times.txt")
  let stops ← readMember (zf "stops.txt")
  let calendar ← readMember (zf "calendar.txt")
  let calendarDates ← readMember (zf "calendar_dates.txt")
  let shapes ← readMember (zf "shapes.txt")
  let transfers ← readMember (zf "transfers.txt")
  let frequencies ← readMember (zf "frequencies.txt")
  let feedInfo ← readMember (zf "feed_info.txt")
  return {
    agency, routes, trips, stopTimes, stops, calendar, calendarDates, shapes, transfers,
    frequencies, feedInfo }

/-- The archive with these members. -/
def Feed.archive (feed : Feed) : Archive
  | "agency.txt" => feed.agency.map memberText
  | "routes.txt" => feed.routes.map memberText
  | "trips.txt" => feed.trips.map memberText
  | "stop_times.txt" => feed.stopTimes.map memberText
  | "stops.txt" => feed.stops.map memberText
  | "calendar.txt" => feed.calendar.map memberText
  | "calendar_dates.txt" => feed.calendarDates.map memberText
  | "shapes.txt" => feed.shapes.map memberText
  | "transfers.txt" => feed.transfers.map memberText
  | "frequencies.txt" => feed.frequencies.map memberText
  | "feed_info.txt" => feed.feedInfo.map memberText
  | _ => none

/-- What the script can raise. -/
inductive ArchiveError where
  | csvError (error : CsvError)
  | filterError (error : FilterError)
deriving DecidableEq

/-- The script on an archive: the one it writes, and the number of patched trips. -/
def filterArchive (lower : String → String) (order : SetOrder) (agencyMatch : String)
    (src : Archive) : Except ArchiveError (Archive × Nat) := do
  let feed ← (readFeed src).mapError .csvError
  let out ← (main lower order agencyMatch feed).mapError .filterError
  return (out.feed.archive, out.patched)

section Archive

variable {lower : String → String} {order order' : SetOrder} {agencyMatch : String}
  {src dst : Archive} {feed : Feed} {out : Filtered} {file : File} {member : Option File}
  {rows : List Row} {r : Row} {fields : Option (List String)} {patched : Nat}

theorem mapError_eq_ok {ε ε' α : Type} {f : ε → ε'} {x : Except ε α} {a : α} :
    x.mapError f = .ok a ↔ x = .ok a := by
  cases x with
  | error e => simp [Except.mapError]
  | ok a => simp [Except.mapError]

theorem filterArchive_eq_ok :
    filterArchive lower order agencyMatch src = .ok (dst, patched) ↔
      ∃ feed out, readFeed src = .ok feed ∧ main lower order agencyMatch feed = .ok out ∧
        dst = out.feed.archive ∧ patched = out.patched := by
  simp only [filterArchive, Loop.bind_eq_ok, mapError_eq_ok, pure, Except.pure, Except.ok.injEq,
    Prod.mk.injEq]
  constructor
  · rintro ⟨feed, hfeed, out, hout, rfl, rfl⟩
    exact ⟨feed, out, hfeed, hout, rfl, rfl⟩
  · rintro ⟨feed, out, hfeed, hout, rfl, rfl⟩
    exact ⟨feed, hfeed, out, hout, rfl, rfl⟩

/-! ## Cells are short enough to be read again -/

/-- No cell of the member is longer than the reader allows. -/
def ShortMember (member : Option File) : Prop :=
  ∀ file, member = some file → ∀ record ∈ file.header :: file.lines, ∀ cell ∈ record,
    cell.length ≤ fieldSizeLimit

/-- No value of the row is. -/
def ShortRow (r : Row) : Prop :=
  ∀ column value, r.get column = some value → value.length ≤ fieldSizeLimit

theorem readMember_eq_ok {text : List Char} : readMember (some text) = .ok member ↔
    ∃ rows, records fieldSizeLimit (decodeSig text) = .ok rows ∧ fileOf rows = member := by
  simp only [readMember, Loop.bind_eq_ok, pure, Except.pure, Except.ok.injEq]

theorem shortMember_readMember {text : Option (List Char)} (h : readMember text = .ok member) :
    ShortMember member := by
  cases text with
  | none =>
      cases h
      rintro file ⟨⟩
  | some text =>
      obtain ⟨rows, hrows, h⟩ := readMember_eq_ok.mp h
      cases rows with
      | nil =>
          cases h
          rintro file ⟨⟩
      | cons header lines =>
          cases h
          rintro file ⟨⟩
          exact length_le_of_records hrows

theorem get_readRow {header cells : List String} {column value : String}
    (h : (readRow header cells).get column = some value) : value ∈ cells := by
  induction header generalizing cells with
  | nil => cases h
  | cons first header ih =>
      simp only [Row.get, readRow] at h
      cases hrest : readRow header cells.tail column with
      | some found =>
          rw [hrest, Option.some_or] at h
          have hmem : value ∈ cells.tail := by
            apply ih
            rw [Row.get, hrest]
            exact h
          exact List.mem_of_mem_tail hmem
      | none =>
          rw [hrest, Option.none_or] at h
          split at h
          · exact List.mem_of_mem_head? h
          · cases h

theorem ShortMember.shortRow (h : ShortMember member) : ∀ r ∈ (read member).rows, ShortRow r := by
  cases member with
  | none =>
      intro r hr
      cases hr
  | some file =>
      intro r hr column value hvalue
      obtain ⟨line, hline, rfl⟩ := List.mem_map.mp hr
      have hmem : line ∈ file.header :: file.lines :=
        List.mem_cons_of_mem _ (List.mem_of_mem_filter hline)
      exact h file rfl line hmem value (get_readRow hvalue)

theorem ShortMember.shortHeader (h : ShortMember member) {header : List String}
    (hheader : (read member).fields = some header) :
    ∀ column ∈ header, column.length ≤ fieldSizeLimit := by
  cases member with
  | none => cases hheader
  | some file =>
      cases hheader
      exact h file rfl _ List.mem_cons_self

theorem shortRow_set (h : ShortRow r) : ShortRow (r.set "bikes_allowed" "1") := by
  intro column value hvalue
  by_cases hcolumn : column = "bikes_allowed"
  · subst hcolumn
    rw [get_set_self] at hvalue
    cases hvalue
    decide
  · rw [Row.get, Row.set, Function.update_of_ne hcolumn] at hvalue
    exact h column value hvalue

/-! ## What the members are made of -/

section Written

variable (P : List String → Prop) (Q : Row → Prop)

/-- The header and the rows of a member. -/
def ReadAs (member : Option File) : Prop :=
  (∀ header, (read member).fields = some header → P header) ∧ ∀ r ∈ (read member).rows, Q r

/-- The member was written of such rows under such a header. -/
def WrittenOf (member : Option File) : Prop :=
  ∀ file, member = some file →
    ∃ (header : List String) (rows : List Row),
      file = ⟨header, rows.map (writeRow header)⟩ ∧ P header ∧ ∀ r ∈ rows, Q r

variable {P Q}

theorem writtenOf_write (hheader : ∀ header, fields = some header → P header)
    (hrows : ∀ r ∈ rows, Q r) (hwrite : write fields rows = .ok member) : WrittenOf P Q member := by
  obtain ⟨header, hfields, rfl⟩ := write_eq_ok.mp hwrite
  rintro file ⟨⟩
  exact ⟨header, rows, rfl, hheader header hfields, hrows⟩

theorem writtenOf_writeIf (hheader : ∀ header, fields = some header → P header)
    (hrows : ∀ r ∈ rows, Q r) : WrittenOf P Q (writeIf fields rows) := by
  unfold writeIf
  split
  · rename_i column header
    rintro file ⟨⟩
    exact ⟨column :: header, rows, rfl, hheader _ rfl, hrows⟩
  · rintro file ⟨⟩

/-- Every member is written of rows that were read, under the header they were read with, but
    for the column that marks metro trips. -/
theorem main_members (hfeed : ∀ member ∈ feed.members, ReadAs P Q member)
    (hout : main lower order agencyMatch feed = .ok out)
    (hcolumn : ∀ header, P header ∨ header = [] → P (header ++ ["bikes_allowed"]))
    (hset : ∀ r, Q r → Q (r.set "bikes_allowed" "1")) :
    ∀ member ∈ out.feed.members, WrittenOf P Q member := by
  obtain ⟨s, hs, hw⟩ := main_eq_ok.mp hout
  simp only [Feed.members, List.forall_mem_cons, List.not_mem_nil, false_implies, implies_true,
    and_true] at hfeed ⊢
  obtain ⟨hagency, hroutes, htrips, hstopTimes, hstops, hcalendar, hcalendarDates, hshapes,
    htransfers, hfrequencies, hfeedInfo⟩ := hfeed
  refine ⟨?_, ?_, ?_, ?_, ?_, ?_, ?_, ?_, ?_, ?_, ?_⟩
  · exact writtenOf_write hagency.1 (fun r hr => hagency.2 r (hs.mem_agencies hr)) hw.agency
  · exact writtenOf_write hroutes.1 (fun r hr => hroutes.2 r (hs.mem_routes hr)) hw.routes
  · refine writtenOf_write ?_ ?_ hw.trips
    · intro header hheader
      rw [tripFields] at hheader
      split at hheader
      · cases hheader
        apply hcolumn
        cases hfields : (read feed.trips).fields with
        | none => exact Or.inr rfl
        | some original => exact Or.inl (htrips.1 original hfields)
      · exact htrips.1 header hheader
    · intro r hr
      obtain ⟨trip, htrip, rfl⟩ := List.mem_map.mp hr
      have hold : Q trip := htrips.2 trip (hs.mem_trips htrip)
      rw [patch]
      split
      · exact hset trip hold
      · exact hold
  · exact writtenOf_write hstopTimes.1 (fun r hr => hstopTimes.2 r (mem_having.mp hr).1)
      hw.stopTimes
  · refine writtenOf_write hstops.1 ?_ hw.stops
    intro r hr
    obtain ⟨id, -, hstop⟩ := List.mem_filterMap.mp hr
    exact hstops.2 r (allStops_mem hstop).1
  · rw [hw.calendar]
    exact writtenOf_writeIf hcalendar.1 fun r hr => hcalendar.2 r (mem_having.mp hr).1
  · rw [hw.calendarDates]
    exact writtenOf_writeIf hcalendarDates.1 fun r hr => hcalendarDates.2 r (mem_having.mp hr).1
  · rw [hw.shapes]
    exact writtenOf_writeIf hshapes.1 fun r hr => hshapes.2 r (mem_having.mp hr).1
  · rw [hw.transfers]
    exact writtenOf_writeIf htransfers.1 fun r hr => htransfers.2 r (List.mem_of_mem_filter hr)
  · rw [hw.frequencies]
    exact writtenOf_writeIf hfrequencies.1 fun r hr => hfrequencies.2 r (mem_having.mp hr).1
  · rw [hw.feedInfo]
    exact writtenOf_writeIf hfeedInfo.1 hfeedInfo.2

end Written

/-- What is written can be read again, if what was read could. -/
theorem short_main (hfeed : ∀ member ∈ feed.members, ShortMember member)
    (hout : main lower order agencyMatch feed = .ok out) :
    ∀ member ∈ out.feed.members, ShortMember member := by
  have hholds : ∀ member ∈ feed.members,
      ReadAs (fun header => ∀ column ∈ header, column.length ≤ fieldSizeLimit) ShortRow member := by
    intro member hmember
    exact ⟨fun _ => (hfeed member hmember).shortHeader, (hfeed member hmember).shortRow⟩
  have hcolumn : ∀ header : List String,
      (∀ column ∈ header, column.length ≤ fieldSizeLimit) ∨ header = [] →
        ∀ column ∈ header ++ ["bikes_allowed"], column.length ≤ fieldSizeLimit := by
    intro header hheader column hcolumn
    rcases List.mem_append.mp hcolumn with hold | hnew
    · rcases hheader with hheader | rfl
      · exact hheader column hold
      · cases hold
    · rw [List.mem_singleton.mp hnew]
      decide
  intro member hmember file hfile record hrecord cell hcell
  obtain ⟨header, rows, rfl, hheader, hrows⟩ :=
    main_members hholds hout hcolumn (fun _ => shortRow_set) member hmember file hfile
  rcases List.mem_cons.mp hrecord with rfl | hrecord
  · exact hheader cell hcell
  · obtain ⟨r, hr, rfl⟩ := List.mem_map.mp hrecord
    obtain ⟨column, -, rfl⟩ := List.mem_map.mp hcell
    cases hvalue : r.get column with
    | none => exact Nat.zero_le _
    | some value => exact hrows r hr column value hvalue

/-! ## Reading what was written -/

/-- The text would lose its first character to the reader. -/
def Marked (text : List Char) : Prop := text.head? = some '\ufeff'

theorem decodeSig_of_not_marked {text : List Char} (h : ¬ Marked text) : decodeSig text = text := by
  unfold decodeSig
  split
  · exact absurd rfl h
  · rfl

theorem readMember_memberText (hshort : ShortMember member)
    (hmark : ∀ file, member = some file → ¬ Marked (memberText file)) :
    readMember (member.map memberText) = .ok member := by
  cases member with
  | none => rfl
  | some file =>
      have hread : records fieldSizeLimit (memberText file) = .ok (file.header :: file.lines) :=
        records_writeRecords (hshort file rfl)
      rw [Option.map_some, readMember_eq_ok, decodeSig_of_not_marked (hmark file rfl)]
      exact ⟨_, hread, rfl⟩

/-- A member that begins with a mark is read back as another one. -/
theorem readMember_of_marked (hshort : ShortMember (some file)) (hmark : Marked (memberText file)) :
    readMember (some (memberText file)) ≠ .ok (some file) := by
  obtain ⟨text, htext, hwritten⟩ := writeRecord_eq file.header
  have hlines := fileText_writeRecords file.lines
  have hsplit : memberText file = text ++ (['\r', '\n'] ++ writeRecords file.lines) := by
    rw [memberText, writeRecords, List.flatMap_cons, hwritten, List.append_assoc]
    rfl
  cases text with
  | nil =>
      rw [Marked, hsplit] at hmark
      cases hmark
  | cons c text =>
      obtain rfl : c = '\ufeff' := by
        rw [Marked, hsplit] at hmark
        exact Option.some.inj hmark
      have hfields := hshort file rfl
      rw [List.forall_mem_cons] at hfields
      obtain ⟨header', hother, htext', hshort'⟩ :=
        htext.tail (by decide) (by decide) hfields.1
      have hread : records fieldSizeLimit (text ++ (['\r', '\n'] ++ writeRecords file.lines)) =
          .ok (header' :: file.lines) :=
        (FileText.cons htext' (Or.inl rfl) hlines).records_eq
          (List.forall_mem_cons.mpr ⟨hshort', hfields.2⟩)
      have hdecode : decodeSig (memberText file) =
          text ++ (['\r', '\n'] ++ writeRecords file.lines) := by
        rw [hsplit]
        rfl
      intro hsame
      obtain ⟨rows, hrows, hfile⟩ := readMember_eq_ok.mp hsame
      rw [hdecode, hread] at hrows
      cases hrows
      exact hother (congrArg File.header (Option.some.inj hfile))

theorem readMember_memberText_iff (hshort : ShortMember member) :
    readMember (member.map memberText) = .ok member ↔
      ∀ file, member = some file → ¬ Marked (memberText file) := by
  constructor
  · rintro hread file rfl hmark
    exact readMember_of_marked hshort hmark hread
  · exact readMember_memberText hshort

theorem readFeed_archive_iff : readFeed feed.archive = .ok feed ↔
    ∀ member ∈ feed.members, readMember (member.map memberText) = .ok member := by
  simp only [Feed.members, List.forall_mem_cons, List.not_mem_nil, false_implies, implies_true,
    and_true]
  constructor
  · intro hread
    simp only [readFeed, Feed.archive, Loop.bind_eq_ok, pure, Except.pure, Except.ok.injEq] at hread
    obtain ⟨_, hagency, _, hroutes, _, htrips, _, hstopTimes, _, hstops, _, hcalendar, _,
      hcalendarDates, _, hshapes, _, htransfers, _, hfrequencies, _, hfeedInfo, rfl⟩ := hread
    exact ⟨hagency, hroutes, htrips, hstopTimes, hstops, hcalendar, hcalendarDates, hshapes,
      htransfers, hfrequencies, hfeedInfo⟩
  · rintro ⟨hagency, hroutes, htrips, hstopTimes, hstops, hcalendar, hcalendarDates, hshapes,
      htransfers, hfrequencies, hfeedInfo⟩
    simp only [readFeed, Feed.archive, hagency, hroutes, htrips, hstopTimes, hstops, hcalendar,
      hcalendarDates, hshapes, htransfers, hfrequencies, hfeedInfo]
    rfl

theorem readFeed_members (hfeed : readFeed src = .ok feed) :
    ∀ member ∈ feed.members, ∃ text, readMember text = .ok member := by
  simp only [readFeed, Loop.bind_eq_ok, pure, Except.pure, Except.ok.injEq] at hfeed
  obtain ⟨_, hagency, _, hroutes, _, htrips, _, hstopTimes, _, hstops, _, hcalendar, _,
    hcalendarDates, _, hshapes, _, htransfers, _, hfrequencies, _, hfeedInfo, rfl⟩ := hfeed
  simp only [Feed.members, List.forall_mem_cons, List.not_mem_nil, false_implies, implies_true,
    and_true]
  exact ⟨⟨_, hagency⟩, ⟨_, hroutes⟩, ⟨_, htrips⟩, ⟨_, hstopTimes⟩, ⟨_, hstops⟩, ⟨_, hcalendar⟩,
    ⟨_, hcalendarDates⟩, ⟨_, hshapes⟩, ⟨_, htransfers⟩, ⟨_, hfrequencies⟩, ⟨_, hfeedInfo⟩⟩

/-- No member that the script writes is too long for its reader. -/
theorem short_written (hfeed : readFeed src = .ok feed)
    (hout : main lower order agencyMatch feed = .ok out) :
    ∀ member ∈ out.feed.members, ShortMember member := by
  refine short_main (fun member hmember => ?_) hout
  obtain ⟨text, htext⟩ := readFeed_members hfeed member hmember
  exact shortMember_readMember htext

/-- No member begins with a byte-order mark. -/
def Unmarked (zf : Archive) : Prop := ∀ name text, zf name = some text → ¬ Marked text

theorem unmarked_archive : Unmarked feed.archive ↔
    ∀ member ∈ feed.members, ∀ file, member = some file → ¬ Marked (memberText file) := by
  simp only [Feed.members, List.forall_mem_cons, List.not_mem_nil, false_implies, implies_true,
    and_true]
  have hmember : ∀ {member : Option File},
      (∀ text, member.map memberText = some text → ¬ Marked text) →
        ∀ file, member = some file → ¬ Marked (memberText file) := by
    rintro member htext file rfl
    exact htext _ rfl
  constructor
  · intro h
    exact ⟨hmember (h "agency.txt"), hmember (h "routes.txt"), hmember (h "trips.txt"),
      hmember (h "stop_times.txt"), hmember (h "stops.txt"), hmember (h "calendar.txt"),
      hmember (h "calendar_dates.txt"), hmember (h "shapes.txt"), hmember (h "transfers.txt"),
      hmember (h "frequencies.txt"), hmember (h "feed_info.txt")⟩
  · rintro ⟨hagency, hroutes, htrips, hstopTimes, hstops, hcalendar, hcalendarDates, hshapes,
      htransfers, hfrequencies, hfeedInfo⟩ name text htext
    unfold Feed.archive at htext
    split at htext
    all_goals
      try obtain ⟨file, hfile, rfl⟩ := Option.map_eq_some_iff.mp htext
    · exact hagency file hfile
    · exact hroutes file hfile
    · exact htrips file hfile
    · exact hstopTimes file hfile
    · exact hstops file hfile
    · exact hcalendar file hfile
    · exact hcalendarDates file hfile
    · exact hshapes file hfile
    · exact htransfers file hfile
    · exact hfrequencies file hfile
    · exact hfeedInfo file hfile
    · cases htext

/-- The header would begin its text with a byte-order mark. -/
def MarkedHeader (header : List String) : Prop :=
  ∃ column ∈ header.head?, Marked column.toList

theorem marked_memberText (h : Marked (memberText file)) : MarkedHeader file.header := by
  obtain ⟨header, lines⟩ := file
  obtain ⟨text, ⟨texts, htexts, rfl, -⟩, hwritten⟩ := writeRecord_eq header
  rw [memberText, writeRecords, List.flatMap_cons, hwritten] at h
  rw [MarkedHeader]
  cases htexts with
  | nil => cases h
  | @cons first column texts columns hfirst _ =>
      refine ⟨column, rfl, ?_⟩
      cases first with
      | nil =>
          cases texts with
          | nil => cases h
          | cons => cases h
      | cons c first =>
          have hc : c = '\ufeff' := by
            cases texts with
            | nil => exact Option.some.inj h
            | cons => exact Option.some.inj h
          rcases hfirst with ⟨hplain, -⟩ | hquoted
          · rw [Marked, ← hplain, hc]
            rfl
          · rw [hc] at hquoted
            cases hquoted

/-- Where no header read begins with a mark, no written text does. -/
theorem unmarked_main
    (hfeed : ∀ member ∈ feed.members, ∀ file, member = some file → ¬ MarkedHeader file.header)
    (hout : main lower order agencyMatch feed = .ok out) : Unmarked out.feed.archive := by
  have hreadAs : ∀ member ∈ feed.members,
      ReadAs (fun header => ¬ MarkedHeader header) (fun _ => True) member := by
    intro member hmember
    refine ⟨fun header hheader => ?_, fun _ _ => trivial⟩
    cases member with
    | none => cases hheader
    | some file =>
        cases hheader
        exact hfeed _ hmember file rfl
  have hcolumn : ∀ header : List String,
      ¬ MarkedHeader header ∨ header = [] → ¬ MarkedHeader (header ++ ["bikes_allowed"]) := by
    rintro header hheader ⟨column, hcolumn, hmarked⟩
    cases header with
    | nil =>
        cases hcolumn
        exact absurd hmarked (by simp [Marked])
    | cons first header =>
        rcases hheader with hheader | hnil
        · exact hheader ⟨column, hcolumn, hmarked⟩
        · cases hnil
  rw [unmarked_archive]
  intro member hmember file hfile hmark
  obtain ⟨header, rows, rfl, hheader, -⟩ :=
    main_members hreadAs hout hcolumn (fun _ _ => trivial) member hmember file hfile
  exact hheader (marked_memberText hmark)

theorem readFeed_written (hfeed : readFeed src = .ok feed)
    (hout : main lower order agencyMatch feed = .ok out) :
    readFeed out.feed.archive = .ok out.feed ↔ Unmarked out.feed.archive := by
  have hshort := short_written hfeed hout
  rw [readFeed_archive_iff, unmarked_archive]
  constructor
  · intro hread member hmember
    exact (readMember_memberText_iff (hshort member hmember)).mp (hread member hmember)
  · intro hunmarked member hmember
    exact (readMember_memberText_iff (hshort member hmember)).mpr (hunmarked member hmember)

/-! ## Filtering the archive again -/

/-- The texts of two members with the same header and, in some order, the same lines. -/
def SameText (text text' : Option (List Char)) : Prop :=
  ∃ header lines lines', text = some (writeRecords (header :: lines)) ∧
    text' = some (writeRecords (header :: lines')) ∧ lines.Perm lines'

section Again

variable {wanted : String} {s s' : Selection} {out' : Filtered}
  (hs : Selects lower wanted feed s) (hw : Writes order feed s out) (hfeed : Complete feed)
  (hs' : Selects lower wanted out.feed s') (hw' : Writes order' out.feed s' out')

include hs hw hfeed hs' hw'

/-- The second run writes the stops of the first feed, in the order of its own set. -/
theorem write_stops_again :
    write (read feed.stops).fields
      ((order'.list (s.keep feed)).filterMap (allStops (read feed.stops).rows)) =
        .ok out'.feed.stops := by
  have hagain := hw'.stops
  rw [keep_again hs hw hfeed hs', read_stops hw hfeed] at hagain
  have hfound : (order'.list (s.keep feed)).filterMap (allStops (stopRows order feed s)) =
      (order'.list (s.keep feed)).filterMap (allStops (read feed.stops).rows) := by
    refine List.filterMap_congr fun id hid => ?_
    exact allStops_again ((order'.mem _ _).mp hid)
  rw [hfound] at hagain
  exact hagain

theorem feed_again : out'.feed = { out.feed with stops := out'.feed.stops } := by
  have hagency := agency_again hs hw hfeed hs' hw'
  have hroutes := routes_again hs hw hfeed hs' hw'
  have htrips := trips_again hs hw hfeed hs' hw'
  have hstopTimes := stopTimesMember_again hs hw hfeed hs' hw'
  obtain ⟨hcalendar, hcalendarDates, hshapes, htransfers, hfrequencies, hfeedInfo⟩ :=
    optional_again hs hw hfeed hs' hw'
  dsimp only
  rw [← hagency, ← hroutes, ← htrips, ← hstopTimes, ← hcalendar, ← hcalendarDates, ← hshapes,
    ← htransfers, ← hfrequencies, ← hfeedInfo]

theorem stopsText_again :
    SameText (out.feed.archive "stops.txt") (out'.feed.archive "stops.txt") := by
  have hstops := stops_again hs hw hfeed hs' hw'
  obtain ⟨_, -, hwritten⟩ := write_eq_ok.mp hw.stops
  rcases hstops with ⟨hnone, -⟩ | ⟨header, lines, lines', hfile, hfile', hperm⟩
  · rw [hnone] at hwritten
    cases hwritten
  · refine ⟨header, lines, lines', ?_, ?_, hperm⟩
    · change out.feed.stops.map memberText = _
      rw [hfile]
      rfl
    · change out'.feed.stops.map memberText = _
      rw [hfile']
      rfl

end Again

end Archive

/-! ### The archive of a shared station -/

theorem readFeed_sharedStation :
    readFeed (sharedStation []).archive = .ok (sharedStation []) := by
  rw [readFeed_archive_iff]
  decide +kernel

theorem exists_filtered_sharedStation : ∃ out : Filtered,
    filterArchive asciiLower someOrder "GVB" (sharedStation []).archive =
      .ok (out.feed.archive, out.patched) ∧ Unmarked out.feed.archive := by
  obtain ⟨out, hout⟩ : ∃ out, main asciiLower someOrder "GVB" (sharedStation []) = .ok out :=
    main_isOk_iff.mpr (sharedStation_accepted [])
  refine ⟨out, filterArchive_eq_ok.mpr ⟨_, out, readFeed_sharedStation, hout, rfl, rfl⟩, ?_⟩
  apply unmarked_main _ hout
  simp [Feed.members, sharedStation, MarkedHeader, Marked]

/-! ## The script and its own output -/

section Main

variable {lower : String → String} {order : SetOrder} {agencyMatch : String}
  {src dst : Archive} {feed : Feed} {patched : Nat}

/-- **What the script writes is what its next reader reads**: the feed it filtered, cell by
    cell, quotes, commas and line ends included, unless a member begins with a byte-order
    mark. -/
theorem archive_read_back_iff (h : filterArchive lower order agencyMatch src = .ok (dst, patched)) :
    ∃ feed out, readFeed src = .ok feed ∧ main lower order agencyMatch feed = .ok out ∧
      patched = out.patched ∧ (readFeed dst = .ok out.feed ↔ Unmarked dst) := by
  obtain ⟨feed, out, hfeed, hout, rfl, rfl⟩ := filterArchive_eq_ok.mp h
  exact ⟨feed, out, hfeed, hout, rfl, readFeed_written hfeed hout⟩

theorem archive_read_back_sharedStation : ∃ dst patched out,
    filterArchive asciiLower someOrder "GVB" (sharedStation []).archive = .ok (dst, patched) ∧
      readFeed dst = .ok out := by
  obtain ⟨out, hfiltered, hmarks⟩ := exists_filtered_sharedStation
  obtain ⟨feed, out', -, -, -, hread⟩ := archive_read_back_iff hfiltered
  exact ⟨_, _, _, hfiltered, hread.mpr hmarks⟩

/-- **Filtering an archive again leaves its texts as they are**, stops.txt up to the order of
    its lines, and that too if sets are iterated over in the same order. -/
theorem archive_filtered_again (hsrc : readFeed src = .ok feed) (hcomplete : Complete feed)
    (h : filterArchive lower order agencyMatch src = .ok (dst, patched)) (hmarks : Unmarked dst)
    (order' : SetOrder) :
    ∃ again, filterArchive lower order' agencyMatch dst = .ok (again, 0) ∧
      (∀ name, name ≠ "stops.txt" → again name = dst name) ∧
      SameText (dst "stops.txt") (again "stops.txt") ∧ (order = order' → again = dst) := by
  obtain ⟨feed', out, hfeed, hout, rfl, -⟩ := filterArchive_eq_ok.mp h
  obtain rfl : feed = feed' := Except.ok.inj (hsrc.symm.trans hfeed)
  have hread := (readFeed_written hfeed hout).mpr hmarks
  obtain ⟨s, hs, hw⟩ := main_eq_ok.mp hout
  obtain ⟨out', hout'⟩ : ∃ out', main lower order' agencyMatch out.feed = .ok out' :=
    main_isOk_iff.mpr (accepted_again hs hw hcomplete).1
  obtain ⟨s', hs', hw'⟩ := main_eq_ok.mp hout'
  have hothers := feed_again hs hw hcomplete hs' hw'
  have hpatched := patched_again hs hw hcomplete hs' hw'
  refine ⟨out'.feed.archive, ?_, ?_, stopsText_again hs hw hcomplete hs' hw', ?_⟩
  · exact filterArchive_eq_ok.mpr ⟨out.feed, out', hread, hout', rfl, hpatched.symm⟩
  · intro name hname
    rw [hothers]
    unfold Feed.archive
    split <;> first | rfl | exact absurd rfl hname
  · rintro rfl
    rw [hothers, write_again hw.stops (write_stops_again hs hw hcomplete hs' hw')]

theorem archive_filtered_again_sharedStation : ∃ dst patched,
    filterArchive asciiLower someOrder "GVB" (sharedStation []).archive = .ok (dst, patched) ∧
      filterArchive asciiLower someOrder "GVB" dst = .ok (dst, 0) := by
  obtain ⟨out, hfiltered, hmarks⟩ := exists_filtered_sharedStation
  obtain ⟨again, hagain, -, -, hsame⟩ := archive_filtered_again readFeed_sharedStation
    sharedStation_complete hfiltered hmarks someOrder
  rw [hsame rfl] at hagain
  exact ⟨_, _, hfiltered, hagain⟩

end Main

end FietsOfOv.Gtfs
